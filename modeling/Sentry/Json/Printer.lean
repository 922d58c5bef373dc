import Sentry.Json.Value

/-! JSON values written without blanks. In a string the quote, the backslash
and the control characters are escaped, and every other character stands for
itself. -/
namespace Sentry.Json

def hexDigit (n : Nat) : Char :=
  Nat.digitChar (n % 16)

/-- How one character is written inside quotes. -/
def escape (c : Char) : List Char :=
  match c with
  | '"' => ['\\', '"']
  | '\\' => ['\\', '\\']
  | '\n' => ['\\', 'n']
  | '\r' => ['\\', 'r']
  | '\t' => ['\\', 't']
  | '\x08' => ['\\', 'b']
  | '\x0c' => ['\\', 'f']
  | c =>
    if c.toNat < 0x20 then ['\\', 'u', '0', '0', hexDigit (c.toNat / 16), hexDigit c.toNat]
    else [c]

def quote (text : List Char) : List Char :=
  '"' :: text.flatMap escape ++ ['"']

namespace Value

mutual

/-- The text of a value; a string without text is written as an empty one. -/
def chars : Value → List Char
  | .null => "null".toList
  | .bool true => "true".toList
  | .bool false => "false".toList
  | .number spelling => spelling.toList
  | .string text => quote (text.getD "").toList
  | .array items => '[' :: itemChars items ++ [']']
  | .object members => '\x7b' :: memberChars members ++ ['\x7d']

def itemChars : List Value → List Char
  | [] => []
  | [value] => value.chars
  | value :: rest => value.chars ++ ',' :: itemChars rest

def memberChars : List (Option String × Value) → List Char
  | [] => []
  | [(name, value)] => quote (name.getD "").toList ++ ':' :: value.chars
  | (name, value) :: rest => quote (name.getD "").toList ++ ':' :: value.chars ++ ',' :: memberChars rest

end

def render (value : Value) : String :=
  String.ofList value.chars

end Value

end Sentry.Json
