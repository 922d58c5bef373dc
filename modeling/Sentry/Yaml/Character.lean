/-! The characters of YAML texts, and what separates their words, lines and
documents. -/
namespace Sentry.Yaml

/-- A text may hold tabs, line breaks and printable characters, but no other control characters. -/
def isAllowed (c : Char) : Bool :=
  let code := c.toNat
  code == 0x09 || code == 0x0A || code == 0x0D || (0x20 ≤ code && code ≤ 0x7E) || code == 0x85 ||
    (0xA0 ≤ code && code ≤ 0xFFFD) || 0x10000 ≤ code

def isBlank (c : Char) : Bool :=
  c == ' ' || c == '\t'

/-- Separators of lines that are kept as they are. -/
def isUnicodeBreak (c : Char) : Bool :=
  c == '\u2028' || c == '\u2029'

/-- The end of a line, once ordinary breaks have one spelling. -/
def isBreak (c : Char) : Bool :=
  c == '\n' || isUnicodeBreak c

/-- The text with every ordinary line break spelled as a line feed. -/
def unifyBreaks : List Char → List Char
  | [] => []
  | '\r' :: '\n' :: rest => '\n' :: unifyBreaks rest
  | c :: rest => (if c = '\r' ∨ c = '\u0085' then '\n' else c) :: unifyBreaks rest

/-- What follows is no part of a word: a blank, a break, or nothing. -/
def endsWord : List Char → Bool
  | [] => true
  | c :: _ => isBlank c || isBreak c

/-- What is left behind a line in which nothing but a comment follows. -/
def afterLine? (text : List Char) : Option (List Char) :=
  let rest := text.dropWhile isBlank
  let rest := if rest.head? == some '#' then rest.dropWhile (!isBreak ·) else rest
  match rest with
  | [] => some []
  | c :: rest => if isBreak c then some rest else none

def isStartMarker : List Char → Bool
  | '-' :: '-' :: '-' :: rest => endsWord rest
  | _ => false

def isEndMarker : List Char → Bool
  | '.' :: '.' :: '.' :: rest => endsWord rest
  | _ => false

def isMarker (text : List Char) : Bool :=
  isStartMarker text || isEndMarker text

/-- Characters of anchor names and tag handles. -/
def isWordChar (c : Char) : Bool :=
  c.isAlphanum || c == '_' || c == '-'

/-- Characters that open, close or separate flow collections. -/
def isFlowIndicator (c : Char) : Bool :=
  c == ',' || c == '[' || c == ']' || c == '\x7b' || c == '\x7d'

def byteCount (text : List Char) : Nat :=
  (text.map Char.utf8Size).foldr (· + ·) 0

end Sentry.Yaml
