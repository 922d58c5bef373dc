import Sentry.Yaml.Cursor

/-! Block scalars: indented lines behind a header. A literal scalar keeps its line
breaks, a folded one joins lines. The indentation is given in the header or taken
from the first lines. -/
namespace Sentry.Yaml.Scalar

/-- What happens to the line breaks at the end. -/
inductive Chomp where
  /-- All are dropped. -/
  | strip
  /-- The first one is kept. -/
  | clip
  /-- All are kept. -/
  | keep
  deriving DecidableEq

/-- The header of a block scalar. The indentation is zero if it is not given. -/
structure Header where
  chomp : Chomp := .clip
  indent : Nat := 0

namespace Header

/-- A chomping indicator, if there is one. -/
def splitChomp : List Char → Option Chomp × List Char
  | '+' :: rest => (some .keep, rest)
  | '-' :: rest => (some .strip, rest)
  | rest => (none, rest)

/-- An indentation indicator, if there is one; zero is refused. -/
def splitIndent : List Char → Option (Nat × List Char)
  | c :: rest =>
    if c = '0' then none
    else if c.isDigit then some (c.toNat - '0'.toNat, rest)
    else some (0, c :: rest)
  | [] => some (0, [])

/-- The two indicators, in either order. -/
def parse? (text : List Char) : Option (Header × List Char) :=
  match splitChomp text with
  | (some chomp, rest) =>
    (splitIndent rest).map fun (indent, rest) => (⟨chomp, indent⟩, rest)
  | (none, rest) =>
    (splitIndent rest).map fun (indent, rest) =>
      if indent = 0 then (⟨.clip, 0⟩, rest)
      else
        let (chomp, rest) := splitChomp rest
        (⟨chomp.getD .clip, indent⟩, rest)

end Header

/-- A block scalar that is being read; lists are kept last first. -/
structure Block where
  text : List Char := []
  /-- The break behind the latest line. -/
  lead : Option Char := none
  /-- The breaks of the empty lines after it. -/
  empty : List Char := []
  /-- The latest line began with a blank. -/
  blankLine : Bool := false
  /-- The indentation; zero until it is known. -/
  indent : Nat
  /-- The widest indentation of the empty lines at the beginning. -/
  widest : Nat := 0

namespace Block

/-- The column is within the indentation. -/
def isIndent (b : Block) (column : Nat) : Bool :=
  b.indent == 0 || column < b.indent

/-- The breaks in front of a line that begins with `c`. In a folded scalar a break between two lines
without extra indentation becomes a space, or nothing if empty lines follow it. -/
def beginLine (literal : Bool) (c : Char) (b : Block) : Block :=
  let lead :=
    if !literal && b.lead == some '\n' && !b.blankLine && !isBlank c then
      if b.empty.isEmpty then [' '] else []
    else b.lead.toList
  { b with text := c :: (b.empty ++ lead ++ b.text), lead := none, empty := [],
           blankLine := isBlank c }

def finish (chomp : Chomp) (b : Block) : String :=
  let lead := if chomp = .strip then [] else b.lead.toList
  let empty := if chomp = .keep then b.empty else []
  String.ofList (empty ++ lead ++ b.text).reverse

end Block

/-- The text of a block scalar, behind its header, and the place behind it. `margin` is the least
column for its lines; `inLine` says that the indentation of the line has been read. -/
def block? (literal : Bool) (chomp : Chomp) (margin : Nat) (inLine : Bool) (b : Block)
    (line column : Nat) : List Char → Option (String × Cursor)
  | [] => some (b.finish chomp, ⟨[], line, column⟩)
  | c :: rest =>
    if inLine then
      if isBreak c then
        block? literal chomp margin false { b with lead := some c } (line + 1) 0 rest
      else
        block? literal chomp margin true { b with text := c :: b.text } line (column + 1) rest
    else if c == ' ' && b.isIndent column then
      block? literal chomp margin false b line (column + 1) rest
    else if c == '\t' && b.isIndent column then none
    else if isBreak c then
      block? literal chomp margin false
        { b with empty := c :: b.empty, widest := max b.widest column } (line + 1) 0 rest
    else
      let indent := if b.indent = 0 then max (max b.widest column) (max margin 1) else b.indent
      if column = indent then
        block? literal chomp margin true ({ b with indent }.beginLine literal c) line (column + 1)
          rest
      else some (b.finish chomp, ⟨c :: rest, line, column⟩)

end Sentry.Yaml.Scalar
