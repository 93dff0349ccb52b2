set_option autoImplicit false

/-! # Tokens of a YAML text

The marks and texts that a document is made of. Where a block starts and ends is marked by the
indentation of a text; here it has tokens of its own. -/

namespace ReleaseCandidates.Yaml

/-- How the text of a scalar was set apart. -/
inductive Style where
  | plain
  | singleQuoted
  | doubleQuoted
  | literal
  | folded
  deriving DecidableEq, Repr

/-- A mark or a text of a document. -/
inductive Token where
  | streamEnd
  | version (major minor : Nat)
  /-- Says what a tag handle stands for. -/
  | handle (name replacement : String)
  | documentStart
  | documentEnd
  | blockSequenceStart
  | blockMappingStart
  | blockEnd
  | flowSequenceStart
  | flowSequenceEnd
  | flowMappingStart
  | flowMappingEnd
  /-- The dash before an item of a block sequence. -/
  | item
  /-- The comma between entries of a flow collection. -/
  | comma
  | key
  | value
  | anchor (name : String)
  | alias (name : String)
  | tag (handle suffix : String)
  | scalar (text : String) (style : Style)
  deriving DecidableEq, Repr

end ReleaseCandidates.Yaml
