import StackFlow.Contract
import StackFlow.Proofs.Shelter

/-!
What a block protects. A stack that enters a block has the protected items hidden, keeps them while
it is in the body, and shows them again, on top, when it leaves. Main statement: this holds of every
block of compiled code whose nested levels do not take the boundary back in front of it. Nothing
checks the levels: a block with a negative level inside another one reaches what the outer one
protects.
-/

namespace StackFlow

open Micheline (Instruction Code)

/-- What the block `d` between `a` and `b` does for a stack that enters it. -/
def Protects (g : Graph) (d : Instruction) (a b : Waypoint) (s : Stack) : Prop :=
  ∀ p t, g.Move a s p t → ∃ top below, s.visible = top ++ below ∧ (top.length : Int) = dipLevel d ∧
    p = a.succ ∧ t = { s with hidden := s.hidden ++ top, visible := below } ∧
    ∀ q u, g.Trip (· ≠ b) p t q u → u.isFailed = false →
      (q ≠ b → Shields g (s.hidden ++ top) q u) ∧
      (q = b → u.hidden = s.hidden ++ top ∧
        ∀ r w, g.Move b u r w ↔
          r = b.succ ∧ w = { u with hidden := s.hidden, visible := top ++ u.visible })

section Blocks

variable {g : Graph} {known : String → Bool} {depth : Int → Option Int} {d : Instruction}
  {a b p q : Waypoint} {s t u : Stack}

theorem enters_block (block : Block g d a b) (natural : 0 ≤ dipLevel d)
    (level : Level g known depth a s) (enters : g.Move a s p t) :
    ((s.visible.take (dipLevel d).toNat).length : Int) = dipLevel d ∧
      ((s.hidden ++ s.visible.take (dipLevel d).toNat).length : Int) ≤ greatestWord ∧ p = a.succ ∧
      (t.cursor : Int) = wrap (s.cursor + dipLevel d) ∧
      t = { s with
        hidden := s.hidden ++ s.visible.take (dipLevel d).toNat
        visible := s.visible.drop (dipLevel d).toNat } := by
  obtain ⟨lower, upper⟩ := dipLevel_bounds d
  obtain ⟨rfl, stepped⟩ := Graph.effect_run block.opens enters.2
  rw [step_marker lower upper] at stepped
  have narrow : (s.hidden.length : Int) ≤ greatestWord := by
    have narrow := level.narrow
    rwa [Stack.cursor, level.within, Nat.add_zero] at narrow
  obtain ⟨deep, fits, same⟩ := shift_lower level.within narrow natural upper stepped
  have length : ((s.visible.take (dipLevel d).toNat).length : Int) = dipLevel d := by
    rw [List.length_take]
    omega
  refine ⟨length, ?_, rfl, shift_cursor stepped, same⟩
  rw [List.length_append]
  omega

theorem leaves_block {top : List Item} (block : Block g d a b)
    (length : (top.length : Int) = dipLevel d) (within : u.beyond = 0)
    (narrow : (u.hidden.length : Int) ≤ greatestWord) (alive : u.isFailed = false)
    (hidden : u.hidden = s.hidden ++ top) (r : Waypoint) (w : Stack) :
    g.Move b u r w ↔ r = b.succ ∧ w = { u with hidden := s.hidden, visible := top ++ u.visible } := by
  have closes := step_raise within narrow hidden
  rw [length] at closes
  constructor
  · rintro ⟨_, effect⟩
    obtain ⟨rfl, stepped⟩ := Graph.effect_run block.closes effect
    rw [closes] at stepped
    cases stepped
    exact ⟨rfl, rfl⟩
  · rintro ⟨rfl, rfl⟩
    exact ⟨alive, .run block.closes closes⟩

/-- At the closing marker only the protected items are hidden, besides those that were before: the
place is as deep as the opening marker and the level of the block. -/
theorem closing_hidden (chart : g.Charted known depth) (unmarked : Unmarked (dipBody d))
    (block : Block g d a b) (before : Level g known depth a s)
    (lowered : (t.cursor : Int) = wrap (s.cursor + dipLevel d)) (inside : t.beyond = 0)
    (after : Level g known depth b u) (kept : ∃ w : Stack, u = w.under t.hidden) :
    u.hidden = t.hidden := by
  obtain ⟨w, rfl⟩ := kept
  have opened := depthAt_of_stop block.opens before.depth
  have closed := depthAt_of_stop block.closes after.depth
  have same := depthAt_unique closed (block_depth chart unmarked block opened)
  rw [← lowered] at same
  have within : w.beyond = 0 := after.within
  simp only [Stack.cursor, Stack.under, List.length_append, within, inside] at same
  -- both places have one depth, so nothing is hidden below the items that are kept
  have empty : w.hidden.length = 0 := by omega
  rw [List.length_eq_zero_iff] at empty
  simp [Stack.under, empty]

theorem block_protects (chart : g.Charted known depth) {initial : Stack}
    (cursor : initial.cursor = 0) (unmarked : Unmarked (dipBody d)) (block : Block g d a b)
    (natural : 0 ≤ dipLevel d) (sheltered : Sheltered (dipBody d))
    (way : g.Way (.entry g.root) initial a s) : Protects g d a b s := by
  intro p t enters
  have level := level_way chart cursor way enters.1
  have entered := enters_block block natural level enters
  have split := List.take_append_drop (dipLevel d).toNat s.visible
  generalize s.visible.take (dipLevel d).toNat = top at entered split
  generalize s.visible.drop (dipLevel d).toNat = below at entered split
  obtain ⟨length, fits, rfl, lowered, same⟩ := entered
  refine ⟨top, below, split.symm, length, rfl, same, ?_⟩
  intro q u trip alive
  -- the depth at the end comes from the whole way, the kept items from the part in the body
  have arrived := level_way chart cursor
    (Graph.trip_append (Graph.trip_last way trivial enters) (Graph.way_of_trip trip)) alive
  have hidden : t.hidden = s.hidden ++ top := by rw [same]
  have inside : t.beyond = 0 := by rw [same]; exact level.within
  rw [← hidden] at fits ⊢
  have held : Held t.hidden 0 t := fun _ =>
    ⟨{ t with hidden := [] }, by simp [Stack.under], inside, rfl, by simpa using fits⟩
  have keeps (n : Nat) := keepsWays (g := g) unmarked (.inr sheltered) n _ _ _ b t .whole block.body
    held
  have outcome := keeps_trip keeps (fun _ _ exit => by simp [exit.1]) trip
  constructor
  · intro apart
    rcases outcome with ⟨same, _⟩ | on
    · exact absurd same apart
    · exact (on alive).1
  · rintro rfl
    have kept : ∃ w : Stack, u = w.under t.hidden := by
      rcases outcome with ⟨_, ends⟩ | on
      · obtain ⟨w, same, _⟩ := ends alive
        exact ⟨w, same⟩
      · obtain ⟨w, same, _⟩ := (on alive).1
        exact ⟨w, same⟩
    have exactly := closing_hidden chart unmarked block level lowered inside arrived kept
    refine ⟨exactly, ?_⟩
    refine leaves_block block length arrived.within ?_ alive (exactly.trans hidden)
    rw [exactly]
    exact fits

end Blocks

/-! ## Compiled code -/

section Compiled

variable {code : Code} {supports : String → Bool} {initial : Stack}

theorem trip_of_way {g : Graph} {p q : Waypoint} {s t : Stack} (way : g.Way p s q t) :
    g.Trip (· ≠ .entry noNode) p s q t := by
  induction way with
  | stay => exact .stay
  | @move p q r s t u _ first _ ih =>
    refine .move ?_ first ih
    obtain ⟨stop, here⟩ := Graph.effect_stop first.2
    rintro rfl
    exact node_of_stop here rfl

/-- All markers that a stack meets in compiled code belong to a block or to an iteration. -/
theorem markers_have_roles (unmarked : Unmarked code) (cursor : initial.cursor = 0)
    {p : Waypoint} {s : Stack} {i : Instruction}
    (way : (Graph.build code).Way (.entry (Graph.build code).root) initial p s)
    (alive : s.isFailed = false) (here : (Graph.build code).stop? p = some (.run i))
    (marks : isMarker i = true) : Role code (Graph.build code) p := by
  have bare : initial.hidden = [] ∧ initial.beyond = 0 := by
    simpa [Stack.cursor] using cursor
  have held : Held [] 0 initial := fun _ =>
    ⟨initial, by simp [Stack.under], bare.2, by simp [bare.1], by simp [bare.1, greatestWord]⟩
  have keeps (n : Nat) := keepsWays (g := Graph.build code) unmarked (.inl rfl) n code 0 _ _ initial
    .whole (build_lies code) held
  rcases keeps_trip keeps (fun _ _ exit => by simp [exit.1]) (trip_of_way way) with ⟨rfl, _⟩ | on
  · exact absurd rfl (node_of_stop here)
  · exact (on alive).2 i here marks

/-- In every run of compiled code without markers of its own that is valid, a block protects the items
on top of each stack that enters it, unless the levels nested in it take the boundary back in front of
it: from where the block begins to where it ends they stay hidden, where nothing depends on them, and
then they are on top again. -/
theorem blocks_protect (unmarked : Unmarked code)
    (valid : (Graph.build code).validate supports = .ok ()) (cursor : initial.cursor = 0) :
    (∀ budget tag k v, Valve.Advances k (Valve.opened (Graph.build code) initial budget tag) v →
      ∀ f, f ∈ v.frontier ∨ f ∈ v.finished →
        (Graph.build code).Way (.entry (Graph.build code).root) initial (.entry f.node) f.stack) ∧
    (∀ p s i, (Graph.build code).Way (.entry (Graph.build code).root) initial p s →
      s.isFailed = false → (Graph.build code).stop? p = some (.run i) → isMarker i = true →
      Role code (Graph.build code) p) ∧
    ∀ d is r, Nested code r (d :: is) → d.name = "DIP" →
      (∃ a b, Block (Graph.build code) d a b) ∧
      ∀ a b s, Block (Graph.build code) d a b → 0 ≤ dipLevel d → Sheltered (dipBody d) →
        (Graph.build code).Way (.entry (Graph.build code).root) initial a s →
        Protects (Graph.build code) d a b s := by
  refine ⟨?_, fun p s i way => markers_have_roles unmarked cursor way, ?_⟩
  · intro budget tag k v run
    refine advances_way (fun n found joint => ?_) run
    obtain ⟨id, rest, next, root⟩ := build_root code
    cases Option.some.inj (root.symm.trans found)
    cases joint
  · intro d is r nested dip
    constructor
    · obtain ⟨_, _, lies⟩ := nested_lies (build_lies code) nested
      exact (lies_parts lies).block dip
    · intro a b s block natural sheltered way
      exact block_protects (Graph.charted_of_validate valid) cursor
        (unmarked_nested unmarked (nested.dip dip)) block natural sheltered way

end Compiled

/-! ## Code as contracts write it -/

section Source

variable {whole code : Code} {r : Int}

/-- Where no level is negative the nested levels only add up. -/
theorem isSource_nested (source : Micheline.isSource whole) (nested : Nested whole r code) :
    0 ≤ r ∧ Micheline.isSource code := by
  induction nested with
  | whole => exact ⟨Int.le_refl 0, source⟩
  | rest _ ih => exact ⟨ih.1, (isSource_cons ih.2).2⟩
  | group _ _ ih => exact ⟨ih.1, isSource_body (isSource_cons ih.2).1⟩
  | dip _ dip ih =>
    have first := (isSource_cons ih.2).1
    exact ⟨Int.add_nonneg ih.1 (isSource_dipLevel first dip), isSource_dipBody first⟩
  | arm _ _ _ _ ih => exact ⟨ih.1, isSource_arm (isSource_cons ih.2).1 _⟩
  | turn _ _ _ ih =>
    refine ⟨?_, isSource_arm (isSource_cons ih.2).1 0⟩
    have natural := ih.1
    split <;> omega

theorem unmarked_of_source (source : Micheline.isSource code) : Unmarked code := by
  intro r i is nested
  have first := isSource_cons (isSource_nested source nested).2
  exact beq_false_of_ne (isSource_name first.1)

theorem sheltered_of_source (source : Micheline.isSource code) : Sheltered code :=
  fun _ _ nested => (isSource_nested source nested).1

end Source

/-- A block with a joint in it, and a further block in one arm of the joint. -/
def forkingBlock : Instruction :=
  .op "DIP" [] [.code [.op "IF" [] [.code [.op "DIP" [] [.code [.op "DROP" [] []]]],
    .code [.op "UNIT" [] []]]]]

def forkingGraph : Graph :=
  { nodes := #[.tube 0 [] noNode, .tube 1 [marker (-1)] noNode, .tube 2 [marker 1] 3,
      .fork 3 "IF" [4, 5], .tube 4 [marker 1, .op "DROP" [] [], marker (-1)] 1,
      .tube 5 [.op "UNIT" [] []] 1]
    root := 2 }

theorem build_forkingBlock : Graph.build [forkingBlock] = forkingGraph := by
  cbv

theorem forkingGraph_valid : forkingGraph.validate supports = .ok () := by
  cbv

theorem forkingBlock_lies : Block forkingGraph forkingBlock ⟨2, 0⟩ ⟨1, 0⟩ := by
  have inner : Lies forkingGraph [.op "DIP" [] [.code [.op "DROP" [] []]]] (.entry 4) ⟨4, 3⟩ :=
    .dip rfl rfl (.run rfl (by decide) rfl rfl .nil) rfl .nil
  have left := lies_extend inner (.leave rfl .nil)
  have right : Lies forkingGraph [.op "UNIT" [] []] (.entry 5) (.entry 1) :=
    .run rfl (by decide) rfl rfl (.leave rfl .nil)
  exact ⟨rfl, .leave rfl (.fork rfl rfl rfl left right .nil), rfl⟩

/-- A stack in the block, with the item that is protected. -/
def sharing (more visible : List String) (trail : List Int) : Stack :=
  { hidden := ("kept" :: more).map (Item.ofText Ty.nat)
    visible := visible.map (Item.ofText Ty.nat)
    trail := trail }

def forkingStack : Stack :=
  { visible := ["kept", "guard", "inner", "dropped"].map (Item.ofText Ty.nat) }

theorem forkingBlock_entered :
    forkingGraph.Move ⟨2, 0⟩ forkingStack ⟨2, 1⟩ (sharing [] ["guard", "inner", "dropped"] []) :=
  ⟨rfl, .run rfl rfl⟩

theorem forkingBlock_passed : forkingGraph.Trip (· ≠ ⟨1, 0⟩) ⟨2, 1⟩
    (sharing [] ["guard", "inner", "dropped"] []) ⟨1, 0⟩ (sharing [] ["inner"] [4, 2]) := by
  have leaves : forkingGraph.Move ⟨2, 1⟩ (sharing [] ["guard", "inner", "dropped"] []) ⟨3, 0⟩
      (sharing [] ["guard", "inner", "dropped"] [2]) := ⟨rfl, @Graph.Effect.leave _ _ _ 2 3 rfl⟩
  have forks : forkingGraph.Move ⟨3, 0⟩ (sharing [] ["guard", "inner", "dropped"] [2]) ⟨4, 0⟩
      (sharing [] ["inner", "dropped"] [2]) :=
    ⟨rfl, @Graph.Effect.first _ _ _ "IF" 4 5 _ _ _ rfl rfl⟩
  have opens : forkingGraph.Move ⟨4, 0⟩ (sharing [] ["inner", "dropped"] [2]) ⟨4, 1⟩
      (sharing ["inner"] ["dropped"] [2]) := ⟨rfl, .run rfl rfl⟩
  have drops : forkingGraph.Move ⟨4, 1⟩ (sharing ["inner"] ["dropped"] [2]) ⟨4, 2⟩
      (sharing ["inner"] [] [2]) := ⟨rfl, .run rfl rfl⟩
  have closes : forkingGraph.Move ⟨4, 2⟩ (sharing ["inner"] [] [2]) ⟨4, 3⟩
      (sharing [] ["inner"] [2]) := ⟨rfl, .run rfl rfl⟩
  have meets : forkingGraph.Move ⟨4, 3⟩ (sharing [] ["inner"] [2]) ⟨1, 0⟩
      (sharing [] ["inner"] [4, 2]) := ⟨rfl, @Graph.Effect.leave _ _ _ 4 1 rfl⟩
  refine .move (by simp) leaves (.move (by simp) forks (.move (by simp) opens ?_))
  exact .move (by simp) drops (.move (by simp) closes (.move (by simp) meets .stay))

/-- The item is hidden at the closing marker, and then above what the arm has left. -/
theorem forking_block_protects :
    Unmarked [forkingBlock] ∧ (Graph.build [forkingBlock]).validate supports = .ok () ∧
      Block (Graph.build [forkingBlock]) forkingBlock ⟨2, 0⟩ ⟨1, 0⟩ ∧
      Sheltered (dipBody forkingBlock) ∧
      Protects (Graph.build [forkingBlock]) forkingBlock ⟨2, 0⟩ ⟨1, 0⟩ forkingStack ∧
      ∀ p t, (Graph.build [forkingBlock]).Move ⟨1, 0⟩ (sharing [] ["inner"] [4, 2]) p t →
        t.visible = ["kept", "inner"].map (Item.ofText Ty.nat) := by
  have unmarked : Unmarked [forkingBlock] := unmarked_of_source (by decide)
  have sheltered : Sheltered (dipBody forkingBlock) := sheltered_of_source (by decide)
  have valid : (Graph.build [forkingBlock]).validate supports = .ok () := by
    rw [build_forkingBlock]
    exact forkingGraph_valid
  have block : Block (Graph.build [forkingBlock]) forkingBlock ⟨2, 0⟩ ⟨1, 0⟩ := by
    rw [build_forkingBlock]
    exact forkingBlock_lies
  have start : (Graph.build [forkingBlock]).Way (.entry (Graph.build [forkingBlock]).root)
      forkingStack ⟨2, 0⟩ forkingStack := by
    rw [build_forkingBlock]
    exact .stay
  have blocks := (@blocks_protect _ supports forkingStack unmarked valid rfl).2.2
  have protects := (blocks forkingBlock [] 0 .whole rfl).2 _ _ _ block (by decide) sheltered start
  refine ⟨unmarked, valid, block, sheltered, protects, ?_⟩
  intro p t leaves
  rw [build_forkingBlock] at protects leaves
  obtain ⟨top, below, split, length, _, same, inside⟩ := protects _ _ forkingBlock_entered
  obtain ⟨hidden, shown⟩ := (inside _ _ forkingBlock_passed rfl).2 rfl
  obtain ⟨_, rfl⟩ := (shown p t).mp leaves
  have kept : top = ["kept"].map (Item.ofText Ty.nat) := hidden.symm
  simp [kept, sharing]

/-- A block with a negative level in one that protects two items. -/
def overlappingBlock : Instruction :=
  .op "DIP" [] [.literal (.int "2"),
    .code [.op "DIP" [] [.literal (.int "-1"), .code [.op "UNIT" [] []]]]]

def overlappingContract : Contract :=
  { parameter := Ty.nat, storage := Ty.nat, code := [.op "UNPAIR" [] [], overlappingBlock] }

def overlappingGraph : Graph :=
  { nodes := #[.tube 0 [] noNode, .tube 1 [.op "UNPAIR" [] [], marker 2, marker (-1),
      .op "UNIT" [] [], marker 1, marker (-2)] noNode]
    root := 1 }

theorem build_overlappingContract : Graph.build overlappingContract.code = overlappingGraph := by
  cbv

theorem overlappingBlock_nested {r : Int} {c : Code} (nested : Nested overlappingContract.code r c) :
    c = overlappingContract.code ∨ c = [overlappingBlock] ∨ c = dipBody overlappingBlock ∨
      c = [.op "UNIT" [] []] ∨ c = [] := by
  induction nested with
  | whole => exact .inl rfl
  | rest _ ih => rcases ih with h | h | h | h | h <;> cases h <;> simp [overlappingContract]
  | group _ group ih => rcases ih with h | h | h | h | h <;> cases h <;> cases group
  | dip _ dip ih =>
    rcases ih with h | h | h | h | h <;> cases h
    · exact absurd dip (by decide)
    · exact .inr (.inr (.inl rfl))
    · exact .inr (.inr (.inr (.inl rfl)))
    · exact absurd dip (by decide)
  | arm _ found _ _ ih => rcases ih with h | h | h | h | h <;> cases h <;> cases found
  | turn _ found _ ih => rcases ih with h | h | h | h | h <;> cases h <;> cases found

theorem overlappingContract_unmarked : Unmarked overlappingContract.code := by
  intro r i is nested
  rcases overlappingBlock_nested nested with h | h | h | h | h <;> cases h <;> rfl

theorem overlappingBlock_lies : Block overlappingGraph overlappingBlock ⟨1, 1⟩ ⟨1, 5⟩ :=
  ⟨rfl, .dip rfl rfl (.run rfl (by decide) rfl rfl .nil) rfl .nil, rfl⟩

def parameterItem : Item := .placeholder Ty.nat ["parameter"]

def storageItem : Item := .placeholder Ty.nat ["storage"]

def unitItem : Item := .ofText Ty.unit "Unit"

theorem overlappingBlock_entered : overlappingGraph.Way (.entry overlappingGraph.root)
    (overlappingContract.initialStack Env.default) ⟨1, 1⟩
    { visible := [parameterItem, storageItem] } := by
  have unpairs : overlappingGraph.Move ⟨1, 0⟩ (overlappingContract.initialStack Env.default) ⟨1, 1⟩
      { visible := [parameterItem, storageItem] } := ⟨rfl, .run rfl rfl⟩
  exact .move trivial unpairs .stay

theorem overlappingBlock_left : overlappingGraph.Way ⟨1, 1⟩
    { visible := [parameterItem, storageItem] } ⟨1, 6⟩
    { visible := [parameterItem, unitItem, storageItem] } := by
  have opens : overlappingGraph.Move ⟨1, 1⟩ { visible := [parameterItem, storageItem] } ⟨1, 2⟩
      { hidden := [parameterItem, storageItem] } := ⟨rfl, .run rfl rfl⟩
  have reaches : overlappingGraph.Move ⟨1, 2⟩ { hidden := [parameterItem, storageItem] } ⟨1, 3⟩
      { hidden := [parameterItem], visible := [storageItem] } := ⟨rfl, .run rfl rfl⟩
  have pushes : overlappingGraph.Move ⟨1, 3⟩ { hidden := [parameterItem], visible := [storageItem] }
      ⟨1, 4⟩ { hidden := [parameterItem], visible := [unitItem, storageItem] } := ⟨rfl, .run rfl rfl⟩
  have returns : overlappingGraph.Move ⟨1, 4⟩
      { hidden := [parameterItem], visible := [unitItem, storageItem] } ⟨1, 5⟩
      { hidden := [parameterItem, unitItem], visible := [storageItem] } := ⟨rfl, .run rfl rfl⟩
  have closes : overlappingGraph.Move ⟨1, 5⟩
      { hidden := [parameterItem, unitItem], visible := [storageItem] } ⟨1, 6⟩
      { visible := [parameterItem, unitItem, storageItem] } := ⟨rfl, .run rfl rfl⟩
  refine .move trivial opens (.move trivial reaches (.move trivial pushes ?_))
  exact .move trivial returns (.move trivial closes .stay)

/-- A block with a negative level reaches an item that the block around it protects: of the two items
that are on top when that one is entered, the second is another when it is left. -/
theorem overlapping_block_unprotected :
    ∃ s t : Stack, Unmarked overlappingContract.code ∧
      (Graph.build overlappingContract.code).validate supports = .ok () ∧
      Nested overlappingContract.code 0 [overlappingBlock] ∧ dipLevel overlappingBlock = 2 ∧
      Block (Graph.build overlappingContract.code) overlappingBlock ⟨1, 1⟩ ⟨1, 5⟩ ∧
      (Graph.build overlappingContract.code).Way
        (.entry (Graph.build overlappingContract.code).root)
        (overlappingContract.initialStack Env.default) ⟨1, 1⟩ s ∧
      (Graph.build overlappingContract.code).Way ⟨1, 1⟩ s ⟨1, 6⟩ t ∧ t.isFailed = false ∧
      s.visible.take 2 = [parameterItem, storageItem] ∧
      t.visible.take 2 = [parameterItem, unitItem] ∧ storageItem ≠ unitItem := by
  rw [build_overlappingContract]
  exact ⟨_, _, overlappingContract_unmarked, by cbv, .rest .whole, by decide, overlappingBlock_lies,
    overlappingBlock_entered, overlappingBlock_left, rfl, rfl, rfl,
    by simp [storageItem, unitItem, Item.placeholder, Item.ofText, Item.ofLiteral]⟩

end StackFlow
