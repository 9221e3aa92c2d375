import Tollgate.Yaml.Tag

/-!
# Tokens

The signs and scalars of a text in their order. Where a block begins and ends
has tokens of its own.
-/

namespace Tollgate.Yaml

/-- How a scalar is written; every text between quotes or folded in a block is `quoted`. -/
inductive Style where
  | plain
  | quoted
  | literal
deriving DecidableEq, Repr

inductive Token where
  | directive (d : Directive)
  | documentStart
  | documentEnd
  | blockList
  | blockRecord
  | blockEnd
  | openList
  | closeList
  | openRecord
  | closeRecord
  | item
  | comma
  | key
  | value
  | anchor (name : String)
  | reference (name : String)
  | tag (t : Tag)
  | scalar (style : Style) (text : String)
deriving DecidableEq, Repr

end Tollgate.Yaml
