import StackFlow.Ty

/-!
Symbolic stack values. An item is a node of an expression tree: the result of an instruction (its
producer) over operands, a concrete literal, a concrete structure, or a bare type that stands for
any value. `absent` is the component that a projection finds where there is none.
-/

namespace StackFlow

inductive Literal where
  | int (n : Int)
  | text (s : String)
  | bool (b : Bool)
deriving DecidableEq, Inhabited, Repr

inductive Item where
  | absent
  | node (ty : Ty) (annots : List String) (producer : String) (literal : Option Literal)
      (operands : List Item)
deriving Inhabited, BEq, Repr

namespace Item

/-- The result of an instruction. -/
def derived (ty : Ty) (producer : String) (operands : List Item) : Item :=
  .node ty [] producer none operands

def ofLiteral (ty : Ty) (l : Literal) : Item := .node ty [] "" (some l) []

def ofText (ty : Ty) (s : String) : Item := .ofLiteral ty (.text s)

/-- A value of which only the type is known. -/
def placeholder (ty : Ty) (annots : List String) : Item := .node ty annots "" none []

/-- A concrete structure; the tag names a variant's constructor. -/
def composite (ty : Ty) (tag : Option String) (parts : List Item) : Item :=
  .node ty [] "" (tag.map .text) parts

/-- What is left of a stack that failed with `reason`. -/
def failure (reason : Item) : Item := derived Ty.fail "FAILWITH" [reason]

def ty : Item → Ty
  | .absent => .unknown
  | .node t .. => t

def annots : Item → List String
  | .absent => []
  | .node _ as .. => as

/-- The instruction that made the item, empty for concrete values and placeholders. -/
def producer : Item → String
  | .absent => ""
  | .node _ _ p _ _ => p

def literal : Item → Option Literal
  | .absent => none
  | .node _ _ _ l _ => l

def operands : Item → List Item
  | .absent => []
  | .node _ _ _ _ ops => ops

def withAnnots (annots : List String) : Item → Item
  | .absent => .absent
  | .node t _ p l ops => .node t annots p l ops

def withTy (t : Ty) : Item → Item
  | .absent => .absent
  | .node _ as p l ops => .node t as p l ops

/-- The first annotation, if any. -/
def annot (x : Item) : String := x.annots.headD ""

def isLeaf (x : Item) : Bool := x.producer == "" && x.operands.isEmpty

def isPlaceholder (x : Item) : Bool := x.isLeaf && x.literal.isNone

def isFailure (x : Item) : Bool := x.ty.is Ty.failName

/-- A pair whose two components are known. -/
def isConcretePair (x : Item) : Bool :=
  x.producer == "" && x.ty.is "pair" && x.operands.length == 2 && x.literal.isNone

/-- The constructor of a concrete variant, empty for anything else. -/
def tag (x : Item) : String :=
  if x.producer != "" then ""
  else match x.literal with
    | some (.text s) => if s ∈ ["Left", "Right", "Some", "None"] then s else ""
    | _ => ""

def int? (x : Item) : Option Int :=
  match x.literal with
  | some (.int n) => some n
  | _ => none

def text? (x : Item) : Option String :=
  match x.literal with
  | some (.text s) => some s
  | _ => none

def bool? (x : Item) : Option Bool :=
  match x.literal with
  | some (.bool b) => some b
  | _ => none

/-- Descends along operand positions; leaving the tree gives `absent`. -/
def sub (x : Item) : List Int → Item
  | [] => x
  | i :: is => if i < 0 then .absent else (x.operands.getD i.toNat .absent).sub is

end Item

end StackFlow
