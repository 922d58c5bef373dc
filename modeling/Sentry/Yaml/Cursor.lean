import Sentry.Yaml.Character

/-! Places in a text: what is left of it, with line and column. Between two words
of a scalar lies a gap, whose blanks and breaks stand for a text of their own. -/
namespace Sentry.Yaml

structure Cursor where
  rest : List Char
  line : Nat := 0
  column : Nat := 0
  deriving Inhabited

namespace Cursor

/-- The place some characters further on in the same line. -/
def forward (c : Cursor) (count : Nat) : Cursor :=
  { c with rest := c.rest.drop count, column := c.column + count }

/-- What separates tokens within a line: a space, a tab unless it would indent a key, and a byte
order mark in the first column. -/
def isSeparator (inFlow keyAllowed : Bool) (column : Nat) (c : Char) : Bool :=
  c == ' ' || (c == '\t' && (inFlow || !keyAllowed)) || (c == '\ufeff' && column == 0)

/-- The next token, and whether a key may start there. In block context each new line may start a
key. -/
def skipBlank (inFlow keyAllowed inComment : Bool) (line column : Nat) :
    List Char → Bool × Cursor
  | [] => (keyAllowed, ⟨[], line, column⟩)
  | c :: rest =>
    if isBreak c then skipBlank inFlow (keyAllowed || !inFlow) false (line + 1) 0 rest
    else if inComment || c == '#' then skipBlank inFlow keyAllowed true line (column + 1) rest
    else if isSeparator inFlow keyAllowed column c then
      skipBlank inFlow keyAllowed false line (column + 1) rest
    else (keyAllowed, ⟨c :: rest, line, column⟩)

end Cursor

/-- What lies between two words of a scalar, last first. -/
inductive Gap where
  | none
  /-- Blanks within a line. -/
  | blanks (seen : List Char)
  /-- A line break, which is absent if it was escaped, and the breaks after it. -/
  | breaks (first : Option Char) (others : List Char)

namespace Gap

/-- The gap with one more blank. Blanks around a break do not count. -/
def blank (c : Char) : Gap → Gap
  | .none => .blanks [c]
  | .blanks seen => .blanks (c :: seen)
  | .breaks first others => .breaks first others

def lineBreak (c : Char) : Gap → Gap
  | .breaks first others => .breaks first (c :: others)
  | _ => .breaks (some c) []

def hasBreak : Gap → Bool
  | .breaks _ _ => true
  | _ => false

def isOpen : Gap → Bool
  | .none => false
  | _ => true

/-- The text that a gap stands for, last first. A single line feed becomes a space, and of several
the first one is dropped. -/
def fold : Gap → List Char
  | .none => []
  | .blanks seen => seen
  | .breaks (some first) others =>
    if first = '\n' then (if others.isEmpty then [' '] else others) else others ++ [first]
  | .breaks Option.none others => others

end Gap

end Sentry.Yaml
