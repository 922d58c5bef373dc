import Sentry.Number.Order
import Sentry.Number.Width

/-! Queues of events that wait for their due time. The owner advances the horizon
once a frame and then takes out what is due. While an event is handled the clock
of the queue stands at its due time, so what the handler schedules is placed
relative to the event and not to the end of the frame. -/
namespace Sentry.Timer

/-- An event that waits for its time. -/
structure Entry (ε : Type) where
  /-- Number of the entry in scheduling order. -/
  id : UInt64
  /-- When it fires. -/
  due : Float
  event : ε
  deriving DecidableEq

/-- Entry `a` fires strictly before entry `b`: it is due earlier, or at the same time and was
scheduled earlier. -/
def Entry.before {ε : Type} (a b : Entry ε) : Bool :=
  orderKey a.due < orderKey b.due || orderKey a.due == orderKey b.due && a.id < b.id

/-- A clock, the time up to which events are due, and the events that have not fired. -/
structure Queue (ε : Type) where
  now : Float := 0
  horizon : Float := 0
  /-- The number the next entry gets. -/
  nextId : UInt64 := 0
  /-- Entries in storage order: new ones go to the end, and the last one fills a gap. -/
  pending : List (Entry ε) := []
  deriving DecidableEq

/-- A list without its entry at an index; the last entry takes its place. -/
def swapRemove {α : Type} (entries : List α) (index : Nat) : List α :=
  match entries.getLast? with
  | some last => (entries.set index last).dropLast
  | none => []

/-- Among the entries due by the horizon the one that fires first, with its index counted from
`index`. -/
def firstDue? {ε : Type} (horizon : Float) (index : Nat) :
    List (Entry ε) → Option (Nat × Entry ε)
  | [] => none
  | entry :: rest =>
    match firstDue? horizon (index + 1) rest with
    | none => if entry.due ≤ horizon then some (index, entry) else none
    | some (place, first) =>
      if entry.due ≤ horizon && !first.before entry then some (index, entry)
      else some (place, first)

namespace Queue

variable {ε : Type}

/-- The delay a caller gets: never negative, and none at all if it is not finite. -/
def effectiveDelay (delay : Float32) : Float :=
  if delay.isFinite then widen (larger32 delay 0) else 0

/-- The step a caller gets: none if it is not finite or not positive. -/
def isStep (dt : Float32) : Bool :=
  dt.isFinite && (0 < dt : Bool)

/-- An event that fires a delay after `now`. It gets the number `nextId`. -/
def schedule (q : Queue ε) (delay : Float32) (event : ε) : Queue ε :=
  { q with
    nextId := q.nextId + 1
    pending := q.pending ++ [⟨q.nextId, q.now + effectiveDelay delay, event⟩] }

def anyDue (q : Queue ε) : Bool :=
  q.pending.any fun entry => (entry.due ≤ q.horizon : Bool)

/-- The horizon moves forward by one frame. The clock follows at once if nothing is due. -/
def advance (q : Queue ε) (dt : Float32) : Queue ε :=
  let moved := if isStep dt then { q with horizon := q.horizon + widen dt } else q
  if moved.anyDue then moved else { moved with now := moved.horizon }

/-- The first event that is due, taken out of the queue, whose clock then stands at its due time.
If nothing is due, the clock catches up with the horizon. -/
def popDue (q : Queue ε) : Option ε × Queue ε :=
  match firstDue? q.horizon 0 q.pending with
  | some (index, entry) =>
    (some entry.event,
      { q with now := larger entry.due q.now, pending := swapRemove q.pending index })
  | none => (none, { q with now := q.horizon })

/-- Of two waiting times the first in order; the earlier in the list wins a tie. -/
def sooner (a b : Float) : Float :=
  if orderKey b < orderKey a then b else a

/-- Time from `now` until the first pending event. -/
def untilNext? (q : Queue ε) : Option Float :=
  match q.pending.map fun entry => larger (entry.due - q.now) 0 with
  | [] => none
  | first :: rest => some (rest.foldl sooner first)

/-- The events are scheduled in order, each with its own delay. -/
def scheduleAll (q : Queue ε) (followers : List (Float32 × ε)) : Queue ε :=
  followers.foldl (fun q follower => q.schedule follower.1 follower.2) q

/-- Fires at most `limit` due events. Each is recorded with the clock at its firing, and then its
followers are scheduled. -/
def drain (follow : ε → List (Float32 × ε)) : Nat → Queue ε → List (ε × Float) × Queue ε
  | 0, q => ([], q)
  | limit + 1, q =>
    match q.popDue with
    | (none, settled) => ([], settled)
    | (some event, popped) =>
      let (fired, rest) := drain follow limit (popped.scheduleAll (follow event))
      ((event, popped.now) :: fired, rest)

end Queue

end Sentry.Timer
