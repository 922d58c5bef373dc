import Sentry.Json.Lexeme

/-! The lexemes of a JSON text are put together into one value by a fold that
keeps the containers still open, innermost first, so nesting costs no
recursion. -/
namespace Sentry.Json

/-- An open container that waits for a value; what it already holds is kept last first. -/
inductive Open where
  | item (items : List Value)
  | member (members : List (Option String × Value)) (key : Option String)

/-- What the text may go on with. -/
inductive Reader where
  /-- A value. -/
  | anyValue (outer : List Open)
  /-- The first item of an array, or its end. -/
  | firstItem (outer : List Open)
  /-- A comma and another item, or the end of the array. -/
  | afterItem (items : List Value) (outer : List Open)
  /-- The first name of an object, or its end. -/
  | firstName (outer : List Open)
  /-- A name. -/
  | nextName (members : List (Option String × Value)) (outer : List Open)
  /-- The colon after a name. -/
  | afterName (members : List (Option String × Value)) (key : Option String) (outer : List Open)
  /-- A comma and another member, or the end of the object. -/
  | afterMember (members : List (Option String × Value)) (outer : List Open)
  /-- Nothing more. -/
  | done (value : Value)

namespace Reader

/-- A finished value goes into the innermost open container. -/
def deliver (v : Value) : List Open → Reader
  | [] => .done v
  | .item items :: outer => .afterItem (v :: items) outer
  | .member members key :: outer => .afterMember ((key, v) :: members) outer

/-- The first lexeme of a value. -/
def begin? (outer : List Open) : Lexeme → Option Reader
  | .scalar v => some (deliver v outer)
  | .openArray => some (.firstItem outer)
  | .openObject => some (.firstName outer)
  | _ => none

def step : Reader → Lexeme → Option Reader
  | .anyValue outer, lexeme => begin? outer lexeme
  | .firstItem outer, .closeArray => some (deliver (.array []) outer)
  | .firstItem outer, lexeme => begin? (.item [] :: outer) lexeme
  | .afterItem items outer, .comma => some (.anyValue (.item items :: outer))
  | .afterItem items outer, .closeArray => some (deliver (.array items.reverse) outer)
  | .firstName outer, .closeObject => some (deliver (.object []) outer)
  | .firstName outer, .scalar (.string key) => some (.afterName [] key outer)
  | .nextName members outer, .scalar (.string key) => some (.afterName members key outer)
  | .afterName members key outer, .colon => some (.anyValue (.member members key :: outer))
  | .afterMember members outer, .comma => some (.nextName members outer)
  | .afterMember members outer, .closeObject => some (deliver (.object members.reverse) outer)
  | _, _ => none

/-- The value, once the text has ended. -/
def finish? : Reader → Option Value
  | .done v => some v
  | _ => none

end Reader

def Value.ofLexemes? (lexemes : List Lexeme) : Option Value :=
  (lexemes.foldlM Reader.step (.anyValue [])).bind Reader.finish?

def Value.parse? (text : String) : Option Value :=
  (lexemes? text.toList).bind Value.ofLexemes?

end Sentry.Json
