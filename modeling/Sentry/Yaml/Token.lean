/-! What a YAML text is made of. Indentation has become tokens of its own. -/
namespace Sentry.Yaml

inductive Style where
  | plain
  | quoted
  | literal
  | folded
  deriving DecidableEq, Inhabited

inductive Token where
  /-- A directive, which has been read already. -/
  | directive
  | documentStart
  | documentEnd
  | streamEnd
  | blockSequenceStart
  | blockMappingStart
  /-- The end of a block collection, where the indentation falls back. -/
  | blockEnd
  | flowSequenceStart
  | flowSequenceEnd
  | flowMappingStart
  | flowMappingEnd
  /-- The dash of a block sequence. -/
  | blockEntry
  /-- The comma of a flow collection. -/
  | flowEntry
  /-- In front of a key. -/
  | key
  /-- The colon in front of a value. -/
  | value
  | alias (name : String)
  | anchor (name : String)
  | tag (name : String)
  | scalar (style : Style) (text : String)
  deriving DecidableEq, Inhabited

end Sentry.Yaml
