/-!
Tokens of YAML. Indentation shows only as the start and the end of block collections, and a key is
announced before it.
-/

namespace StackFlow.Yaml

inductive Token where
  /-- The version that a document is written in. -/
  | version (major minor : Nat)
  /-- What a handle in front of a tag is short for. -/
  | handle (name text : String)
  | documentStart
  | documentEnd
  | streamEnd
  | blockSeq
  | blockMap
  | blockEnd
  | openSeq
  | closeSeq
  | openMap
  | closeMap
  /-- The dash before an entry of a block sequence. -/
  | dash
  | comma
  | key
  | value
  | alias (name : String)
  | anchor (name : String)
  | tag (handle suffix : String)
  | scalar (plain : Bool) (text : String)
deriving DecidableEq, Repr, Inhabited

end StackFlow.Yaml
