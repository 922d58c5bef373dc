import Sentry.Yaml.Cursor

/-! Plain scalars. A plain scalar ends before a colon or a comment that a blank
sets off, before a document mark, where the indentation falls back, and in a flow
collection before its indicators. -/
namespace Sentry.Yaml.Scalar

/-- A colon in front of a flow indicator is refused in flow collections. -/
def isStrayColon (c : Char) : List Char → Bool
  | next :: _ => c == ':' && (isFlowIndicator next || next == '?')
  | [] => false

/-- A word does not begin here after a gap: the indentation has fallen back, or a mark or a comment
begins. -/
def endsBeforeWord (inFlow : Bool) (margin column : Nat) (text : List Char) : Bool :=
  (!inFlow && column < margin) || (column == 0 && isMarker text) || text.head? == some '#'

/-- The character ends a plain scalar even within a word. -/
def endsWithin (inFlow : Bool) (c : Char) (rest : List Char) : Bool :=
  (c == ':' && endsWord rest) || (inFlow && isFlowIndicator c)

/-- The text of a plain scalar, whether the gap behind it holds a line break, and the place behind
the gap. `margin` is the least column for further lines; `text` is read already, last first. -/
def plain? (inFlow : Bool) (margin : Nat) (text : List Char) (gap : Gap) (line column : Nat) :
    List Char → Option (String × Bool × Cursor)
  | [] => some (String.ofList text.reverse, gap.hasBreak, ⟨[], line, column⟩)
  | c :: rest =>
    if isBreak c then plain? inFlow margin text (gap.lineBreak c) (line + 1) 0 rest
    else if isBlank c then
      if gap.hasBreak && c == '\t' && column < margin then none
      else plain? inFlow margin text (gap.blank c) line (column + 1) rest
    else if gap.isOpen && endsBeforeWord inFlow margin column (c :: rest) then
      some (String.ofList text.reverse, gap.hasBreak, ⟨c :: rest, line, column⟩)
    else if inFlow && isStrayColon c rest then none
    else if endsWithin inFlow c rest then
      some (String.ofList text.reverse, gap.hasBreak, ⟨c :: rest, line, column⟩)
    else plain? inFlow margin (c :: (gap.fold ++ text)) .none line (column + 1) rest

end Sentry.Yaml.Scalar
