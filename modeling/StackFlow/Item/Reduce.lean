import StackFlow.Item.Basic

/-!
Simplification of projections over concrete values: the component of a known pair, and the payload
of a known variant in the branch that it takes.
-/

namespace StackFlow.Item

/-- The constructor that a branch payload unwraps. -/
def unwrapped? (producer : String) : Option String :=
  [("IF_LEFT.0", "Left"), ("IF_LEFT.1", "Right"), ("LOOP_LEFT.0", "Left"), ("LOOP_LEFT.1", "Right"),
    ("IF_NONE.some", "Some")].lookup producer

/-- The component that a projection finds directly in its operand. -/
def projected? (producer : String) (src : Item) : Option Item :=
  match producer with
  | "CAR" => if src.isConcretePair then src.operands[0]? else none
  | "CDR" => if src.isConcretePair then src.operands[1]? else none
  | _ =>
    match unwrapped? producer, src.operands with
    | some tag, .node t as p l ops :: _ => if src.tag == tag then some (.node t as p l ops) else none
    | _, _ => none

/-- What a node over simplified operands becomes: a component of its operand, if it projects one. -/
def collapse? (producer : String) (ops : List Item) : Option Item :=
  match ops with
  | [src] => if producer == "" then none else projected? producer src
  | _ => none

mutual

/-- The simplified item, and whether anything was simplified. -/
def simplify : Item → Item × Bool
  | .absent => (.absent, false)
  | .node ty annots producer literal ops =>
    let (ops', changed) := simplifyAll ops
    match collapse? producer ops' with
    | some x => (x, true)
    | none => if changed then (.node ty annots producer literal ops', true)
      else (.node ty annots producer literal ops, false)

def simplifyAll : List Item → List Item × Bool
  | [] => ([], false)
  | x :: xs =>
    let (x', c) := x.simplify
    let (xs', cs) := simplifyAll xs
    (x' :: xs', c || cs)

end

def reduce (x : Item) : Item := x.simplify.1

/-- Whether `reduce` has anything to do. -/
def isReducible (x : Item) : Bool := x.simplify.2

end StackFlow.Item
