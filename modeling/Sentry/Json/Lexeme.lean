import Sentry.Json.Value
import Sentry.Text.Hex

/-! A JSON text is cut into lexemes by one pass over its characters. The pass is a
fold, so what it does on a text made of two parts is what it does on the first
part and then on the second. -/
namespace Sentry.Json

/-- The parts a JSON text is made of. -/
inductive Lexeme where
  | openArray
  | closeArray
  | openObject
  | closeObject
  | comma
  | colon
  | scalar (value : Value)

/-! ## Numbers -/

namespace Number

/-- What follows the digits before the point: a lone zero, or digits that start with another one. -/
def afterWhole? : List Char → Option (List Char)
  | '0' :: rest => some rest
  | c :: rest => if c.isDigit then some (rest.dropWhile Char.isDigit) else none
  | [] => none

/-- What follows at least one digit. -/
def afterDigits? : List Char → Option (List Char)
  | c :: rest => if c.isDigit then some (rest.dropWhile Char.isDigit) else none
  | [] => none

/-- What follows an optional fraction. -/
def afterFraction? : List Char → Option (List Char)
  | '.' :: rest => afterDigits? rest
  | rest => some rest

/-- What follows an optional exponent. -/
def afterExponent? : List Char → Option (List Char)
  | c :: rest =>
    if c = 'e' ∨ c = 'E' then
      match rest with
      | s :: digits => if s = '+' ∨ s = '-' then afterDigits? digits else afterDigits? rest
      | [] => none
    else some (c :: rest)
  | [] => some []

/-- The text is a number of the JSON grammar. -/
def isSpelling (text : List Char) : Bool :=
  let unsigned := match text with
    | '-' :: rest => rest
    | rest => rest
  ((afterWhole? unsigned).bind afterFraction?).bind afterExponent? == some []

def isPart (c : Char) : Bool :=
  c.isDigit || c == '-' || c == '+' || c == '.' || c == 'e' || c == 'E'

end Number

/-! ## Strings -/

namespace Units

/-- First half of a surrogate pair. -/
def isLead (unit : Nat) : Bool :=
  0xD800 ≤ unit && unit < 0xDC00

/-- Second half of a surrogate pair. -/
def isTrail (unit : Nat) : Bool :=
  0xDC00 ≤ unit && unit < 0xE000

/-- The code point that a surrogate pair stands for. -/
def join (lead trail : Nat) : Nat :=
  0x10000 + (lead - 0xD800) * 0x400 + (trail - 0xDC00)

/-- The characters that units stand for; none if half of a surrogate pair stands alone. -/
def chars? : List Nat → Option (List Char)
  | [] => some []
  | [unit] => if isLead unit || isTrail unit then none else some [Char.ofNat unit]
  | lead :: trail :: rest =>
    if isLead lead then
      if isTrail trail then (chars? rest).map (Char.ofNat (join lead trail) :: ·) else none
    else if isTrail lead then none
    else (chars? (trail :: rest)).map (Char.ofNat lead :: ·)

end Units

/-- The unit named by a one-letter escape. -/
def shortEscape? : Char → Option Nat
  | '"' => some 0x22
  | '\\' => some 0x5C
  | '/' => some 0x2F
  | 'b' => some 0x08
  | 'f' => some 0x0C
  | 'n' => some 0x0A
  | 'r' => some 0x0D
  | 't' => some 0x09
  | _ => none

/-! ## The pass over the characters -/

/-- Where the pass stands. Characters and units of an unfinished lexeme are kept last first. -/
inductive Scanner.Place where
  | between
  | word (letters : List Char)
  | number (part : List Char)
  | string (units : List Nat)
  | escape (units : List Nat)
  | hex (units : List Nat) (left value : Nat)

/-- The pass: its place, and the finished lexemes, last first. -/
structure Scanner where
  place : Scanner.Place := .between
  found : List Lexeme := []

namespace Scanner

/-- Blanks that separate lexemes. -/
def isBlank (c : Char) : Bool :=
  c == ' ' || c == '\t' || c == '\n' || c == '\r'

def word? (letters : List Char) : Option Lexeme :=
  match String.ofList letters.reverse with
  | "null" => some (.scalar .null)
  | "true" => some (.scalar (.bool true))
  | "false" => some (.scalar (.bool false))
  | _ => none

def number? (part : List Char) : Option Lexeme :=
  if Number.isSpelling part.reverse then some (.scalar (.number (String.ofList part.reverse)))
  else none

def string (units : List Nat) : Lexeme :=
  .scalar (.string ((Units.chars? units.reverse).map String.ofList))

/-- A character that starts a lexeme or separates two. -/
def start (c : Char) (found : List Lexeme) : Option Scanner :=
  if isBlank c then some ⟨.between, found⟩
  else if Number.isPart c && c != 'e' && c != 'E' then some ⟨.number [c], found⟩
  else if c.isAlpha then some ⟨.word [c], found⟩
  else match c with
    | '"' => some ⟨.string [], found⟩
    | '[' => some ⟨.between, .openArray :: found⟩
    | ']' => some ⟨.between, .closeArray :: found⟩
    | '\x7b' => some ⟨.between, .openObject :: found⟩
    | '\x7d' => some ⟨.between, .closeObject :: found⟩
    | ',' => some ⟨.between, .comma :: found⟩
    | ':' => some ⟨.between, .colon :: found⟩
    | _ => none

def step (s : Scanner) (c : Char) : Option Scanner :=
  match s.place with
  | .between => start c s.found
  | .word letters =>
    if c.isAlpha then some { s with place := .word (c :: letters) }
    else (word? letters).bind fun lexeme => start c (lexeme :: s.found)
  | .number part =>
    if Number.isPart c then some { s with place := .number (c :: part) }
    else (number? part).bind fun lexeme => start c (lexeme :: s.found)
  | .string units =>
    if c = '"' then some ⟨.between, string units :: s.found⟩
    else if c = '\\' then some { s with place := .escape units }
    else if c.toNat < 0x20 then none
    else some { s with place := .string (c.toNat :: units) }
  | .escape units =>
    if c = 'u' then some { s with place := .hex units 4 0 }
    else (shortEscape? c).map fun unit => { s with place := .string (unit :: units) }
  | .hex units left value =>
    (hexValue? c).map fun digit =>
      if left ≤ 1 then { s with place := .string ((16 * value + digit) :: units) }
      else { s with place := .hex units (left - 1) (16 * value + digit) }

/-- The lexemes at the end of the text, in order. -/
def finish? (s : Scanner) : Option (List Lexeme) :=
  match s.place with
  | .between => some s.found.reverse
  | .word letters => (word? letters).map fun lexeme => (lexeme :: s.found).reverse
  | .number part => (number? part).map fun lexeme => (lexeme :: s.found).reverse
  | _ => none

end Scanner

def lexemes? (text : List Char) : Option (List Lexeme) :=
  (text.foldlM Scanner.step {}).bind Scanner.finish?

end Sentry.Json
