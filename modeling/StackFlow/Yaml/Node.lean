/-!
YAML nodes. A node may have an anchor, and an alias stands for the node with an anchor, so a document
keeps the nodes with anchors in a table.
-/

namespace StackFlow.Yaml

inductive Node where
  /-- The tag is empty if there is none. -/
  | scalar (tag : String) (plain : Bool) (text : String)
  | seq (items : List Node)
  | map (pairs : List (Node × Node))
  /-- The name of an anchor, and the place of its node in the table. -/
  | alias (name : String) (target : Nat)
deriving Inhabited, Repr

namespace Node

/-- What stands where a node is left out. -/
def nothing : Node := .scalar "" true ""

/-- Whether two keys of a mapping clash: scalars with the same text, aliases of the same name, and
any two collections of a kind. -/
def clashes : Node → Node → Bool
  | .scalar _ _ a, .scalar _ _ b => a == b
  | .alias a _, .alias b _ => a == b
  | .seq _, .seq _ | .map _, .map _ => true
  | _, _ => false

/-- Whether a key stands for the pairs of other mappings. -/
def isMerge : Node → Bool
  | .scalar tag plain text => text == "<<" && (tag == "!!merge" || (tag == "" && plain))
  | _ => false

end Node

structure Document where
  root : Node
  anchored : Array Node := #[]
  /-- More than the depth of any node, unless it contains itself. -/
  depth : Nat

end StackFlow.Yaml
