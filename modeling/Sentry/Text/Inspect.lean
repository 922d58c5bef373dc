import Sentry.Decimal.Layout
import Sentry.Text.Printable

/-! Values shown for a reader who wants to see all of them: records with the names
of their fields, lists in brackets, texts in quotes with everything invisible
spelled out. -/
namespace Sentry.Inspect

def separated (separator : String) : List String → String
  | [] => ""
  | [last] => last
  | first :: rest => first ++ separator ++ separated separator rest

def record (name : String) (fields : List (String × String)) : String :=
  name ++ " \x7b " ++ separated ", " (fields.map fun (field, value) => field ++ ": " ++ value)
    ++ " \x7d"

/-- One value with the name of what wraps it. -/
def wrapped (name value : String) : String :=
  name ++ "(" ++ value ++ ")"

def option : Option String → String
  | none => "None"
  | some value => wrapped "Some" value

def list (items : List String) : String :=
  "[" ++ separated ", " items ++ "]"

def bool (value : Bool) : String :=
  if value then "true" else "false"

/-- How one character is shown inside quotes. -/
def escape (c : Char) : List Char :=
  match c with
  | '\x00' => ['\\', '0']
  | '\t' => ['\\', 't']
  | '\r' => ['\\', 'r']
  | '\n' => ['\\', 'n']
  | '"' => ['\\', '"']
  | '\\' => ['\\', '\\']
  | c =>
    if isPrintable c then [c]
    else '\\' :: 'u' :: '\x7b' :: Nat.toDigits 16 c.toNat ++ ['\x7d']

/-- A text in quotes. -/
def text (value : String) : String :=
  String.ofList ('"' :: value.toList.flatMap escape ++ ['"'])

/-- Numbers are shown with an exponent from ten to the sixteenth up and below a ten thousandth, and
whole ones end in a point and a zero. -/
def layout : Layout where
  above := some (-4)
  upTo := some 16
  keepsPoint := true
  tie := .up
  nan := "NaN"
  infinity := "inf"

def number (x : Float) : String :=
  layout.double x

end Sentry.Inspect
