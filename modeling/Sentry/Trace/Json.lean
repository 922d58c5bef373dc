import Sentry.Json.Printer
import Sentry.Json.Reader
import Sentry.Trace.Event

/-! Traces as JSON. A log is written as an object with its events in an array.
Reading takes objects in any order of their names and passes over names it does
not know; it also takes arrays that list the values of an object in order. -/
namespace Sentry.Trace

/-- The values under the given names, each of which has to occur once; an array lists them in
order. -/
def fields? (names : List String) : Json.Value → Option (List Json.Value)
  | .array items => if items.length = names.length then some items else none
  | .object members =>
    if Json.Value.namesAreText members then names.mapM (Json.Value.member? members) else none
  | _ => none

/-- A natural number of 64 bits. -/
def word? (value : Json.Value) : Option UInt64 :=
  (value.natural?.filter (· < UInt64.size)).map UInt64.ofNat

namespace Event

def toJson (event : Event) : Json.Value :=
  .record
    [("tick", .ofNat event.tick.toNat), ("tag", .ofText event.tag), ("a", .ofNat event.a.toNat),
      ("b", .ofNat event.b.toNat)]

def ofJson? (value : Json.Value) : Option Event := do
  match ← fields? ["tick", "tag", "a", "b"] value with
  | [tick, tag, a, b] =>
    some { tick := ← word? tick, tag := ← tag.text?, a := ← word? a, b := ← word? b }
  | _ => none

end Event

namespace Log

def toJson (log : Log) : Json.Value :=
  .record [("events", .array (log.events.map Event.toJson))]

def ofJson? (value : Json.Value) : Option Log := do
  match ← fields? ["events"] value with
  | [.array items] => some ⟨← items.mapM Event.ofJson?⟩
  | _ => none

def render (log : Log) : String :=
  log.toJson.render

def parse? (text : String) : Option Log :=
  (Json.Value.parse? text).bind ofJson?

end Log

end Sentry.Trace
