/-! JSON texts read as data. Numbers keep their spelling, so that a reader decides
for itself which numbers it takes. A string has no text where its escapes name
half of a surrogate pair, which the grammar allows. -/
namespace Sentry.Json

/-- A JSON value; members of an object keep their order and may repeat a name. -/
inductive Value where
  | null
  | bool (value : Bool)
  | number (spelling : String)
  | string (text : Option String)
  | array (items : List Value)
  | object (members : List (Option String × Value))
  deriving Inhabited

namespace Value

def ofText (text : String) : Value :=
  .string (some text)

def ofNat (n : Nat) : Value :=
  .number (toString n)

def record (members : List (String × Value)) : Value :=
  .object (members.map fun (name, value) => (some name, value))

/-- The values of the members called `name`, in order. -/
def members (name : String) (fields : List (Option String × Value)) : List Value :=
  (fields.filter fun field => field.1 == some name).map (·.2)

/-- The value of the only member called `name`; none if there is no such member or a second one. -/
def member? (fields : List (Option String × Value)) (name : String) : Option Value :=
  match members name fields with
  | [value] => some value
  | _ => none

/-- Every name of an object is text. -/
def namesAreText (fields : List (Option String × Value)) : Bool :=
  fields.all fun field => field.1.isSome

/-- The natural number that a number spells without sign, point or exponent. -/
def natural? : Value → Option Nat
  | .number spelling =>
    if spelling.toList.all Char.isDigit then some (Nat.ofDigitChars 10 spelling.toList 0) else none
  | _ => none

def text? : Value → Option String
  | .string text => text
  | _ => none

end Value

end Sentry.Json
