import Sentry.Text.Hex
import Sentry.Yaml.Cursor

/-! Quoted scalars. In single quotes only the quote itself is escaped, by doubling
it; in double quotes a backslash escapes characters and line breaks. -/
namespace Sentry.Yaml.Scalar

/-- The character that a one-letter escape stands for. -/
def escaped? : Char → Option Char
  | '0' => some '\x00'
  | 'a' => some '\x07'
  | 'b' => some '\x08'
  | 't' => some '\t'
  | '\t' => some '\t'
  | 'n' => some '\n'
  | 'v' => some '\x0b'
  | 'f' => some '\x0c'
  | 'r' => some '\r'
  | 'e' => some '\x1b'
  | ' ' => some ' '
  | '"' => some '"'
  | '/' => some '/'
  | '\\' => some '\\'
  | 'N' => some '\u0085'
  | '_' => some '\u00a0'
  | 'L' => some '\u2028'
  | 'P' => some '\u2029'
  | _ => none

/-- How many hexadecimal digits follow an escape. -/
def codeLength? : Char → Option Nat
  | 'x' => some 2
  | 'u' => some 4
  | 'U' => some 8
  | _ => none

def ofCode? (code : Nat) : Option Char :=
  if h : code.isValidChar then some (Char.ofNatAux code h) else none

/-- The part of a quoted scalar that the next character belongs to. -/
inductive Part where
  | text
  /-- After a backslash. -/
  | escape
  /-- In a code, with the number of digits left and the value so far. -/
  | code (left value : Nat)
  /-- After a quote in single quotes, which ends the scalar unless another one follows. -/
  | quote

/-- The text of a quoted scalar, behind its first quote, and the place behind its last one. `text` is
read already, last first. -/
def quoted? (double : Bool) (part : Part) (text : List Char) (gap : Gap) (line column : Nat) :
    List Char → Option (String × Cursor)
  | [] =>
    match part with
    | .quote => some (String.ofList text.reverse, ⟨[], line, column⟩)
    | _ => none
  | c :: rest =>
    match part with
    | .quote =>
      if c = '\'' then quoted? double .text (c :: text) .none line (column + 1) rest
      else some (String.ofList text.reverse, ⟨c :: rest, line, column⟩)
    | .escape =>
      if isBreak c then quoted? double .text text (.breaks none []) (line + 1) 0 rest
      else match codeLength? c with
        | some left => quoted? double (.code left 0) text .none line (column + 1) rest
        | none =>
          match escaped? c with
          | some meant => quoted? double .text (meant :: text) .none line (column + 1) rest
          | none => none
    | .code left value =>
      match hexValue? c with
      | none => none
      | some digit =>
        if left ≤ 1 then
          match ofCode? (16 * value + digit) with
          | some meant => quoted? double .text (meant :: text) .none line (column + 1) rest
          | none => none
        else quoted? double (.code (left - 1) (16 * value + digit)) text .none line (column + 1) rest
    | .text =>
      if isBreak c then quoted? double .text text (gap.lineBreak c) (line + 1) 0 rest
      else if isBlank c then quoted? double .text text (gap.blank c) line (column + 1) rest
      else if gap.isOpen && column == 0 && isMarker (c :: rest) then none
      else if double && c == '"' then
        some (String.ofList (gap.fold ++ text).reverse, ⟨rest, line, column + 1⟩)
      else if double && c == '\\' then
        quoted? double .escape (gap.fold ++ text) .none line (column + 1) rest
      else if !double && c == '\'' then
        quoted? double .quote (gap.fold ++ text) .none line (column + 1) rest
      else quoted? double .text (c :: (gap.fold ++ text)) .none line (column + 1) rest

end Sentry.Yaml.Scalar
