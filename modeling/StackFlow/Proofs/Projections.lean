import StackFlow.Proofs.Operands
import StackFlow.Proofs.Origins

/-!
Projections of pairs. Where the components of a pair are known, a projection takes one of them;
elsewhere it is a node over the pair. The two have one simplified form, and one type if the components
have the types that the type of the pair promises. Main statement: they do in every run of code that
casts nothing and pushes no sequence for a pair of two types.
-/

namespace StackFlow

open Micheline (Code Expr Instruction)

/-- The components of a pair, if they are known, have the components of its type, and so do theirs. -/
inductive Item.Faithful : Item → Prop where
  | other {x : Item} : x.isConcretePair = false → Faithful x
  | pair {t : Ty} {annots : List String} {a b : Item} : a.ty = t.arg 0 → b.ty = t.arg 1 →
      Faithful a → Faithful b → Faithful (.node t annots "" none [a, b])

/-- The instruction that takes a side of a pair. -/
def Side.projector : Side → String
  | .left => "CAR"
  | .right => "CDR"

section Items

variable {t : Ty} {annots : List String} {a b x : Item}

theorem concretePair_cases (concrete : x.isConcretePair = true) :
    ∃ t annots a b, x = .node t annots "" none [a, b] ∧ t.is "pair" = true := by
  cases x with
  | absent => cases concrete
  | node t annots producer literal ops =>
    simp only [Item.isConcretePair, Item.producer, Item.ty, Item.operands, Item.literal,
      Bool.and_eq_true, beq_iff_eq, Option.isNone_iff_eq_none] at concrete
    obtain ⟨⟨⟨rfl, pair⟩, two⟩, rfl⟩ := concrete
    obtain ⟨a, b, rfl⟩ := List.length_eq_two.mp two
    exact ⟨t, annots, a, b, rfl, pair⟩

theorem concretePair_node (pair : t.is "pair" = true) :
    (Item.node t annots "" none [a, b]).isConcretePair = true := by
  simp [Item.isConcretePair, Item.producer, Item.ty, Item.operands, Item.literal, pair]

theorem faithful_pair (pair : t.is "pair" = true) :
    (Item.node t annots "" none [a, b]).Faithful ↔
      a.ty = t.arg 0 ∧ b.ty = t.arg 1 ∧ a.Faithful ∧ b.Faithful := by
  constructor
  · intro faithful
    cases faithful with
    | other abstract => cases abstract.symm.trans (concretePair_node pair)
    | pair first second left right => exact ⟨first, second, left, right⟩
  · rintro ⟨first, second, left, right⟩
    exact .pair first second left right

/-- Whether the components are known or not, a projection is simplified to one item. -/
theorem reduce_project (x : Item) (side : Side) : (project x side.projector side).reduce =
    (Item.derived (x.ty.arg side.index) side.projector [x]).reduce := by
  unfold project
  split
  · rename_i concrete
    obtain ⟨t, annots, a, b, rfl, pair⟩ := concretePair_cases concrete
    have own : (Item.node t annots "" none [a, b]).reduce =
        .node t annots "" none [a.reduce, b.reduce] := by
      rw [Item.reduce_node]
      rfl
    have known : (Item.node t annots "" none [a.reduce, b.reduce]).isConcretePair = true :=
      concretePair_node pair
    rw [Item.derived, Item.reduce_node, List.map_singleton, own]
    cases side with
    | left => simp [Side.projector, Item.collapse?, Item.projected?, known, Side.index, Item.operands]
    | right => simp [Side.projector, Item.collapse?, Item.projected?, known, Side.index, Item.operands]
  · rfl

theorem project_ty (faithful : x.Faithful) (name : String) (side : Side) :
    (project x name side).ty = x.ty.arg side.index := by
  unfold project
  split
  · rename_i concrete
    cases faithful with
    | other abstract => cases abstract.symm.trans concrete
    | pair first second =>
      cases side with
      | left => exact first
      | right => exact second
  · rfl

theorem faithful_derived (t : Ty) {producer : String} (named : producer ≠ "") (ops : List Item) :
    (Item.derived t producer ops).Faithful := by
  apply Item.Faithful.other
  simp [Item.isConcretePair, Item.derived, Item.producer, named]

theorem faithful_tagged (t : Ty) (l : Literal) (parts : List Item) :
    (Item.node t [] "" (some l) parts).Faithful := by
  apply Item.Faithful.other
  simp [Item.isConcretePair, Item.literal]

theorem faithful_withAnnots (faithful : x.Faithful) (annots : List String) :
    (x.withAnnots annots).Faithful := by
  cases faithful with
  | other abstract =>
    apply Item.Faithful.other
    cases x with
    | absent => rfl
    | node => exact abstract
  | pair first second left right => exact .pair first second left right

end Items

/-! ## Literals -/

/-- Whether an element of a sequence pairs a key with its value. -/
def isEntry : Expr → Bool
  | .prim "Elt" _ [_, _] => true
  | _ => false

mutual

/-- A literal for a pair writes a sequence of two parts only if both have one type. -/
def WellPaired (t : Ty) : Expr → Prop
  | .seq items => t.is "pair" = true → ElementsWellPaired t items
  | .prim name _ args => name = "Pair" → t.is "pair" = true → PartsWellPaired t args
  | _ => True

def PartsWellPaired (t : Ty) : List Expr → Prop
  | [a, b] => WellPaired (t.arg 0) a ∧ WellPaired (t.arg 1) b
  | a :: b :: c :: rest => WellPaired (t.arg 0) a ∧
      ((t.arg 1).is "pair" = true → PartsWellPaired (t.arg 1) (b :: c :: rest))
  | _ => True

def ElementsWellPaired (t : Ty) : List Expr → Prop
  | [a, b] => t.arg 0 = t.arg 1 ∧ (isEntry a = false ∧ WellPaired (t.arg 0) a) ∧
      isEntry b = false ∧ WellPaired (t.arg 0) b
  | _ => True

end

section Literals

variable {t : Ty} {e : Expr} {es : List Expr} {x : Item} {xs : List Item}

theorem ofParts_ty (accepted : Item.ofParts t es = .ok x) : x.ty = t := by
  unfold Item.ofParts at accepted
  split at accepted
  · cases accepted
  · cases accepted
  · obtain ⟨_, _, accepted⟩ := except_bind_ok accepted
    obtain ⟨_, _, accepted⟩ := except_bind_ok accepted
    cases accepted
    rfl
  · obtain ⟨_, _, accepted⟩ := except_bind_ok accepted
    obtain ⟨_, _, accepted⟩ := except_bind_ok accepted
    cases accepted
    rfl

theorem tagged_cases {tag : String} {payload : Ty}
    (accepted : Item.ofTagged t tag payload es = .ok x) :
    ∃ l parts, x = .node t [] "" (some l) parts := by
  unfold Item.ofTagged at accepted
  split at accepted
  · obtain ⟨inner, _, accepted⟩ := except_bind_ok accepted
    cases accepted
    exact ⟨_, _, rfl⟩
  · cases accepted

/-- A literal gives an item with a literal value or a tag, or it shows components: the elements of a
sequence or the parts of a pair. -/
theorem ofValue_cases (accepted : Item.ofValue t e = .ok x) :
    (WellPaired t e ∧ ∃ l parts, x = .node t [] "" (some l) parts) ∨
    (∃ items parts, e = .seq items ∧ Item.ofElements t items = .ok parts ∧
      x = .composite t none parts) ∨
    ∃ annots args, e = .prim "Pair" annots args ∧ Item.ofParts t args = .ok x := by
  cases e with
  | int s =>
    simp only [Item.ofValue] at accepted
    split at accepted <;> cases accepted
    exact .inl ⟨trivial, _, _, rfl⟩
  | string s | bytes s =>
    cases accepted
    exact .inl ⟨trivial, _, _, rfl⟩
  | seq items =>
    simp only [Item.ofValue] at accepted
    split at accepted
    · rename_i lambda
      cases accepted
      refine .inl ⟨fun pair => ?_, _, _, rfl⟩
      cases t with
      | unknown => cases pair
      | app name args =>
        rw [eq_of_beq (show (name == "lambda") = true from lambda)] at pair
        cases pair
    · split at accepted
      · rename_i empty
        cases accepted
        rw [List.isEmpty_iff.mp empty]
        exact .inl ⟨fun _ => trivial, _, _, rfl⟩
      · obtain ⟨parts, elements, accepted⟩ := except_bind_ok accepted
        cases accepted
        exact .inr (.inl ⟨items, parts, rfl, elements, rfl⟩)
  | prim name annots args =>
    simp only [Item.ofValue] at accepted
    split at accepted
    iterate 4
      cases accepted
      exact .inl ⟨by simp [WellPaired], _, _, rfl⟩
    · exact .inr (.inr ⟨annots, args, rfl, accepted⟩)
    iterate 3 exact .inl ⟨by simp [WellPaired], tagged_cases accepted⟩
    · cases accepted

theorem ofValue_ty (accepted : Item.ofValue t e = .ok x) : x.ty = t := by
  rcases ofValue_cases accepted with ⟨_, _, _, rfl⟩ | ⟨_, _, _, _, rfl⟩ | ⟨_, _, _, parts⟩
  · rfl
  · rfl
  · exact ofParts_ty parts

/-- An element of a sequence: an entry of its own, or a value of the first type. -/
theorem ofElements_cons (accepted : Item.ofElements t (e :: es) = .ok xs) :
    ∃ x rest, xs = x :: rest ∧ Item.ofElements t es = .ok rest ∧
      ((isEntry e = true ∧ x.ty = Ty.pair (t.arg 0) (t.arg 1)) ∨
        isEntry e = false ∧ Item.ofValue (t.arg 0) e = .ok x) := by
  unfold Item.ofElements at accepted
  split at accepted
  · rename_i none
    cases none
  · rename_i first
    cases first
    obtain ⟨key, _, accepted⟩ := except_bind_ok accepted
    obtain ⟨value, _, accepted⟩ := except_bind_ok accepted
    obtain ⟨rest, later, accepted⟩ := except_bind_ok accepted
    cases accepted
    exact ⟨_, rest, rfl, later, .inl ⟨rfl, rfl⟩⟩
  · rename_i other first
    cases first
    obtain ⟨x, own, accepted⟩ := except_bind_ok accepted
    obtain ⟨rest, later, accepted⟩ := except_bind_ok accepted
    cases accepted
    refine ⟨x, rest, rfl, later, .inr ⟨?_, own⟩⟩
    unfold isEntry
    split
    · rename_i annots k v
      exact absurd rfl (other annots k v)
    · rfl

theorem ofElements_length (accepted : Item.ofElements t es = .ok xs) : xs.length = es.length := by
  induction es generalizing xs with
  | nil =>
    cases accepted
    rfl
  | cons e es ih =>
    obtain ⟨x, rest, rfl, later, _⟩ := ofElements_cons accepted
    rw [List.length_cons, List.length_cons, ih later]

/-- No type is a component of itself. -/
theorem pair_apart (t : Ty) : Ty.pair (t.arg 0) (t.arg 1) ≠ t.arg 0 ∧
    Ty.pair (t.arg 0) (t.arg 1) ≠ t.arg 1 := by
  constructor <;>
  · intro same
    have size := congrArg sizeOf same
    simp [Ty.pair] at size
    omega

/-- A structure with other than two parts shows no components. -/
theorem faithful_composite_other {parts : List Item} (other : parts.length ≠ 2) :
    (Item.composite t none parts).Faithful := by
  apply Item.Faithful.other
  apply Bool.eq_false_iff.mpr
  intro concrete
  obtain ⟨_, _, a, b, same, _⟩ := concretePair_cases concrete
  cases same
  exact other rfl

theorem faithful_composite (t : Ty) (a b : Item) : (Item.composite t none [a, b]).Faithful ↔
    (t.is "pair" = true → a.ty = t.arg 0 ∧ b.ty = t.arg 1 ∧ a.Faithful ∧ b.Faithful) := by
  by_cases pair : t.is "pair" = true
  · rw [forall_prop_of_true pair]
    exact faithful_pair pair
  · refine iff_of_true (.other ?_) fun impossible => absurd impossible pair
    simp [Item.isConcretePair, Item.composite, Item.ty, pair]

mutual

/-- All components that are known of the item for a literal have the types that they should have
exactly if the literal writes sequences for pairs of one type only. -/
theorem ofValue_faithful {t : Ty} (e : Expr) {x : Item} (accepted : Item.ofValue t e = .ok x) :
    x.Faithful ↔ WellPaired t e := by
  rcases ofValue_cases accepted with ⟨paired, _, _, rfl⟩ | ⟨items, _, rfl, elements, rfl⟩ |
    ⟨_, args, rfl, parts⟩
  · exact iff_of_true (faithful_tagged ..) paired
  · rw [WellPaired]
    exact ofElements_faithful items elements
  · rw [WellPaired, forall_prop_of_true rfl]
    exact ofParts_faithful args parts
termination_by sizeOf e

theorem ofParts_faithful {t : Ty} : ∀ (es : List Expr) {x : Item}, Item.ofParts t es = .ok x →
    (x.Faithful ↔ (t.is "pair" = true → PartsWellPaired t es))
  | [], x, accepted => by cases accepted
  | [_], x, accepted => by cases accepted
  | [a, b], x, accepted => by
    obtain ⟨left, first, accepted⟩ := except_bind_ok accepted
    obtain ⟨right, second, accepted⟩ := except_bind_ok accepted
    cases accepted
    rw [faithful_composite, ofValue_faithful a first, ofValue_faithful b second, ofValue_ty first,
      ofValue_ty second]
    simp [PartsWellPaired]
  | a :: b :: c :: rest, x, accepted => by
    obtain ⟨left, first, accepted⟩ := except_bind_ok accepted
    obtain ⟨right, second, accepted⟩ := except_bind_ok accepted
    cases accepted
    rw [faithful_composite, ofValue_faithful a first, ofParts_faithful (b :: c :: rest) second,
      ofValue_ty first, ofParts_ty second]
    simp [PartsWellPaired]
termination_by es => sizeOf es

theorem ofElements_faithful {t : Ty} : ∀ (es : List Expr) {xs : List Item},
    Item.ofElements t es = .ok xs →
    ((Item.composite t none xs).Faithful ↔ (t.is "pair" = true → ElementsWellPaired t es))
  | [], xs, accepted | [_], xs, accepted | _ :: _ :: _ :: _, xs, accepted => by
    have count := ofElements_length accepted
    refine iff_of_true (faithful_composite_other ?_) fun _ => trivial
    simp [count]
  | [a, b], xs, accepted => by
    obtain ⟨x, _, rfl, accepted, first⟩ := ofElements_cons accepted
    obtain ⟨y, _, rfl, accepted, second⟩ := ofElements_cons accepted
    cases accepted
    rw [faithful_composite]
    apply imp_congr_right
    intro _
    obtain ⟨apart, apart'⟩ := pair_apart t
    rcases first with ⟨entry, ty⟩ | ⟨value, first⟩
    · simp [ElementsWellPaired, ty, apart, entry]
    · rcases second with ⟨entry, ty⟩ | ⟨value', second⟩
      · simp [ElementsWellPaired, ty, apart', entry]
      · rw [ofValue_faithful a first, ofValue_faithful b second, ofValue_ty first,
          ofValue_ty second]
        simp [ElementsWellPaired, value, value']
termination_by es => sizeOf es

end

end Literals

/-! ## Runs -/

/-- A literal that the instruction pushes is well paired. -/
def PushesPaired (i : Instruction) : Prop :=
  i.name = "PUSH" → ∀ e v t x, i.literalArgs = [e, v] → Ty.ofExpr e = .ok t →
    Item.ofValue t v = .ok x → WellPaired t v

section Runs

variable {code : Code} {i : Instruction} {s t : Stack} {p q : Waypoint}

theorem faithful_component {x y : Item} (faithful : x.Faithful) (concrete : x.isConcretePair = true)
    (member : y ∈ x.operands) : y.Faithful := by
  cases faithful with
  | other abstract => cases abstract.symm.trans concrete
  | pair _ _ left right =>
    rcases List.mem_pair.mp member with rfl | rfl
    · exact left
    · exact right

theorem faithful_yields (uncast : i.name ≠ "CAST") (paired : PushesPaired i) :
    Yields Item.Faithful i where
  text := fun _ _ => faithful_tagged ..
  tagged := fun _ _ _ _ => faithful_tagged ..
  pair := fun _ _ first second => .pair rfl rfl first second
  result := fun t _ ops named _ _ => faithful_derived t named ops
  component := fun _ faithful concrete _ => faithful_component faithful concrete
  withAnnots := fun _ annots faithful => faithful_withAnnots faithful annots
  literal := fun name e v t x literals typed accepted =>
    (ofValue_faithful v accepted).mpr (paired name e v t x literals typed accepted)
  cast := fun name => absurd name uncast

theorem faithful_joints : Joint.Preserves Item.Faithful where
  payloads := by
    intro guard _ j
    have single {label : String} (named : label ≠ "") (ty : Ty) :
        ∀ x ∈ [Joint.payload label ty guard], x.Faithful :=
      List.forall_mem_singleton.mpr (faithful_derived ty named [guard])
    cases j with
    | cond | loop | iter => exact ⟨nofun, nofun⟩
    | condLeft | loopLeft => exact ⟨single (by decide) _, single (by decide) _⟩
    | condNone => exact ⟨nofun, single (by decide) _⟩
    | condCons =>
      exact ⟨List.forall_mem_cons.mpr ⟨faithful_derived _ (by decide) _, single (by decide) _⟩, nofun⟩
  elem := fun _ _ => faithful_derived _ (by decide) _
  rest := fun _ _ => faithful_derived _ (by decide) _

theorem faithful_placeholder (t : Ty) (annots : List String) :
    (Item.placeholder t annots).Faithful := by
  apply Item.Faithful.other
  simp [Item.isConcretePair, Item.placeholder, Item.operands]

theorem initialStack_faithful (c : Contract) (env : Env) :
    (c.initialStack env).All Item.Faithful := by
  refine ⟨rfl, List.forall_mem_singleton.mpr ?_⟩
  exact .pair rfl rfl (faithful_placeholder ..) (faithful_placeholder ..)

theorem step_faithful (yields : Yields Item.Faithful i) (all : s.All Item.Faithful)
    (stepped : (Stack.step i).run s = .ok () t) : t.All Item.Faithful := by
  rcases step_local yields all.within all.visible stepped with
    ⟨v, rfl, kept, _⟩ | ⟨_, shifted⟩ | ⟨_, reason, _, _, rfl⟩
  · exact all.withVisible kept
  · exact all.shift shifted
  · exact ⟨rfl, List.forall_mem_singleton.mpr (faithful_derived _ (by decide) _)⟩

variable {x : Item} {rest : List Item}

theorem annotate_ty (i : Instruction) (x : Item) : (annotate i x).ty = x.ty := by
  unfold annotate
  split
  · rfl
  · cases x <;> rfl

theorem step_projector {side : Side} (name : i.name = side.projector) (within : s.beyond = 0)
    (shown : s.visible = x :: rest) : (Stack.step i).run s =
      .ok () { s with visible := annotate i (project x side.projector side) :: rest } := by
  have found : Rule.ofName? i.name = some (.project side) := by
    rw [name]
    cases side <;> rfl
  rw [Stack.step, found]
  simp only [Rule.run]
  have left : ({ s with visible := rest } : Stack).beyond = 0 := within
  rw [Action.run_bind, run_pop_one within shown]
  dsimp only
  rw [Action.run_push_shown _ left, name]
  rfl

theorem step_unpair (name : i.name = "UNPAIR") (within : s.beyond = 0)
    (shown : s.visible = x :: rest) : (Stack.step i).run s =
      .ok () { s with visible := project x "CAR" .left :: project x "CDR" .right :: rest } := by
  have found : Rule.ofName? i.name = some .unpair := by
    rw [name]
    rfl
  rw [Stack.step, found]
  simp only [Rule.run]
  have left : ({ s with visible := rest } : Stack).beyond = 0 := within
  rw [Action.run_bind, run_pop_one within shown]
  dsimp only
  rw [Action.run_bind, Action.run_push_shown _ left]
  exact Action.run_push_shown _ left

variable (uncast : ∀ r i is, Nested code r (i :: is) → i.name ≠ "CAST")
  (paired : ∀ r i is, Nested code r (i :: is) → PushesPaired i)

include uncast paired

/-- An instruction of a compiled graph is a marker, or it is in the code. -/
theorem drawn_yields (drawn : Drawn code i) : Yields Item.Faithful i := by
  rcases drawn with ⟨n, rfl⟩ | ⟨r, is, nested⟩
  · have name : (marker n).name = "CURSOR" := rfl
    apply faithful_yields
    · simp [name]
    · simp [PushesPaired, name]
  · exact faithful_yields (uncast r i is nested) (paired r i is nested)

theorem move_faithful (all : s.All Item.Faithful)
    (moves : (Graph.build code).Move p s q t) : t.All Item.Faithful := by
  obtain ⟨_, effect⟩ := moves
  cases effect with
  | @run i t here stepped =>
    obtain ⟨n, found, stop⟩ := stop?_some here
    have drawn := build_drawn found i (List.mem_of_getElem? (stop?_run stop).2)
    exact step_faithful (drawn_yields uncast paired drawn) all stepped
  | leave => exact ⟨all.within, all.items⟩
  | first _ branched => exact (split_all faithful_joints all branched).1
  | second _ branched => exact (split_all faithful_joints all branched).2

end Runs

/-- In every run of code that casts nothing and pushes well-paired literals, a projection of an item,
whether its components are known or not, has the type that the type of the item promises, and the same
simplified form as the node for it; `CAR`, `CDR` and `UNPAIR` put such projections on the stack. -/
theorem projections_agree (c : Contract) (env : Env)
    (uncast : ∀ r i is, Nested c.code r (i :: is) → i.name ≠ "CAST")
    (paired : ∀ r i is, Nested c.code r (i :: is) → PushesPaired i) {p : Waypoint} {s : Stack}
    (way : (Graph.build c.code).Way (.entry (Graph.build c.code).root) (c.initialStack env) p s) :
    (∀ x ∈ s.items, ∀ side : Side,
      (project x side.projector side).ty = x.ty.arg side.index ∧
      (project x side.projector side).reduce =
        (Item.derived (x.ty.arg side.index) side.projector [x]).reduce) ∧
    ∀ i x rest, s.visible = x :: rest →
      (∀ side : Side, i.name = side.projector → ∃ y, y.ty = x.ty.arg side.index ∧
        (Stack.step i).run s = .ok () { s with visible := y :: rest }) ∧
      (i.name = "UNPAIR" → ∃ y z, y.ty = x.ty.arg 0 ∧ z.ty = x.ty.arg 1 ∧
        (Stack.step i).run s = .ok () { s with visible := y :: z :: rest }) := by
  have all : s.All Item.Faithful := by
    refine Graph.trip_keeps (P := fun _ s => s.All Item.Faithful) way (initialStack_faithful c env) ?_
    intro p q s t all moves
    exact move_faithful uncast paired all moves
  constructor
  · intro x member side
    exact ⟨project_ty (all.items x member) _ side, reduce_project x side⟩
  · intro i x rest shown
    have faithful : x.Faithful := all.visible x (by rw [shown]; exact List.mem_cons_self)
    constructor
    · intro side name
      refine ⟨_, ?_, step_projector name all.within shown⟩
      rw [annotate_ty]
      exact project_ty faithful _ side
    · intro name
      exact ⟨_, _, project_ty faithful _ .left, project_ty faithful _ .right,
        step_unpair name all.within shown⟩

/-- The type of the literals of `projectingContract`. -/
def projectedTy : Ty := Ty.pair Ty.int Ty.nat

/-- A contract that takes the second component of a literal for a pair of an integer and a natural
number. -/
def projectingContract (literal : Expr) : Contract :=
  { parameter := Ty.unit, storage := Ty.unit
    code := [.op "PUSH" [] [.literal (.prim "pair" [] [.prim "int" [] [], .prim "nat" [] []]),
      .literal literal], .op "CDR" [] []] }

section Projecting

variable {literal : Expr}

theorem build_projecting (literal : Expr) : Graph.build (projectingContract literal).code =
    { nodes := #[.tube 0 [] noNode, .tube 1 (projectingContract literal).code noNode], root := 1 } := by
  cbv

theorem projecting_nested {r : Int} {code : Code}
    (nested : Nested (projectingContract literal).code r code) :
    code = (projectingContract literal).code ∨ code = [.op "CDR" [] []] ∨ code = [] := by
  induction nested with
  | whole => exact .inl rfl
  | rest _ ih => rcases ih with h | h | h <;> cases h <;> simp
  | group _ group ih => rcases ih with h | h | h <;> cases h <;> cases group
  | dip _ dip ih =>
    rcases ih with h | h | h <;> cases h <;> simp [Micheline.Instruction.name] at dip
  | arm _ found _ _ ih => rcases ih with h | h | h <;> cases h <;> cases found
  | turn _ found _ ih => rcases ih with h | h | h <;> cases h <;> cases found

theorem projecting_uncast {r : Int} {i : Instruction} {is : Code}
    (nested : Nested (projectingContract literal).code r (i :: is)) : i.name ≠ "CAST" := by
  rcases projecting_nested nested with h | h | h <;> cases h <;> simp [Micheline.Instruction.name]

theorem projecting_paired (paired : WellPaired projectedTy literal) {r : Int}
    {i : Instruction} {is : Code} (nested : Nested (projectingContract literal).code r (i :: is)) :
    PushesPaired i := by
  intro name e v t x literals typed _
  rcases projecting_nested nested with h | h | h <;> cases h
  · cases literals
    cases typed
    exact paired
  · cases literals

theorem projecting_reached (literal : Expr) {x : Item}
    (accepted : Item.ofValue projectedTy literal = .ok x) :
    (Graph.build (projectingContract literal).code).Way
      (.entry (Graph.build (projectingContract literal).code).root)
      ((projectingContract literal).initialStack Env.default) ⟨1, 1⟩
      { visible := x :: ((projectingContract literal).initialStack Env.default).visible } := by
  have pushed (s : Stack) : (Stack.step (.op "PUSH" []
      [.literal (.prim "pair" [] [.prim "int" [] [], .prim "nat" [] []]), .literal literal])).run s =
      (Rule.ofExcept ((Item.ofValue projectedTy literal).mapError .badLiteral) >>= fun x =>
        Action.push x).run s := rfl
  rw [build_projecting]
  refine .move trivial ⟨rfl, .run rfl ?_⟩ .stay
  rw [pushed, accepted]
  rfl

end Projecting

/-- The contract with its literal written as a pair. -/
def pairedContract : Contract := projectingContract (.prim "Pair" [] [.int "1", .int "2"])

/-- The second component of the pair is a natural number. -/
theorem paired_literal_projected : ∃ s x,
    (Graph.build pairedContract.code).Way (.entry (Graph.build pairedContract.code).root)
      (pairedContract.initialStack Env.default) ⟨1, 1⟩ s ∧
    x ∈ s.items ∧ x.isConcretePair = true ∧ (project x "CDR" .right).ty = Ty.nat := by
  have way := projecting_reached (.prim "Pair" [] [.int "1", .int "2"]) rfl
  obtain ⟨agrees, _⟩ := projections_agree _ _ (fun _ _ _ => projecting_uncast)
    (fun _ _ _ => projecting_paired (by simp [WellPaired, PartsWellPaired])) way
  exact ⟨_, _, way, List.mem_cons_self, rfl, (agrees _ List.mem_cons_self .right).1⟩

/-- A sequence of two numbers for the same pair is accepted, and its second component is an integer:
for an item of a run of code without casts, a projection and the node for it have two types. -/
theorem sequenced_literal_mistyped : ¬ ∀ (c : Contract) (env : Env) (p : Waypoint) (s : Stack),
    (∀ r i is, Nested c.code r (i :: is) → i.name ≠ "CAST") →
    (Graph.build c.code).Way (.entry (Graph.build c.code).root) (c.initialStack env) p s →
    ∀ x ∈ s.items, ∀ side : Side, (project x side.projector side).ty =
      (Item.derived (x.ty.arg side.index) side.projector [x]).ty := by
  intro claimed
  have way := projecting_reached (.seq [.int "1", .int "2"]) rfl
  have same := claimed _ _ _ _ (fun _ _ _ => projecting_uncast) way _ List.mem_cons_self .right
  have apart : Ty.int ≠ Ty.nat := by simp [Ty.int, Ty.nat, Ty.leaf]
  exact apart same

end StackFlow
