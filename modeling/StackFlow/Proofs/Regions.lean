import Mathlib.Logic.Relation
import StackFlow.Proofs.Blocks
import StackFlow.Proofs.Breakage

/-!
Regions of a compiled graph. The nodes that were made for a piece of code lie side by side, their
targets lie among them or are the node in which the piece ends, and from its entry all of them and
the end can be reached. Main statement: compilation makes such a region of any code.
-/

namespace StackFlow

open Micheline (Instruction Code)

/-! ## What compilation makes -/

/-- At `b` a tube ends in the joint behind it. -/
structure Graph.Forks (g : Graph) (b : Nat) (before : Code) (j : Joint) (p q : Int) : Prop where
  straight : ∀ i ∈ before, Joint.ofName? i.name = none
  tube : g.node? b = some (.tube b before (b + 1))
  joint : g.node? ((b : Int) + 1) = some (.fork (b + 1) j.name [p, q])

/-- `Made g flat last a b entry`: the nodes from `a` to `b` were made for the flat code `flat`, which
is entered at `entry` and goes on at `last`. -/
inductive Made (g : Graph) : Code → Int → Nat → Nat → Int → Prop where
  | skip {last : Int} {a : Nat} : last ≠ noNode → Made g [] last a a last
  | terminal {a : Nat} : g.node? terminalId = some (.tube terminalId [] noNode) →
      Made g [] noNode a a terminalId
  | tube {flat : Code} {last : Int} {a : Nat} : (∀ i ∈ flat, Joint.ofName? i.name = none) →
      g.node? a = some (.tube a flat last) → Made g flat last a (a + 1) a
  | fork {i : Instruction} {j : Joint} {before after : Code} {last p q r : Int} {a b c d : Nat} :
      Joint.ofName? i.name = some j → j.isLoop = false → g.Forks b before j p q →
      Made g after last a b r → Made g (flatten (arm i 0)) r (b + 2) c p →
      Made g (flatten (arm i 1)) r c d q → Made g (before ++ i :: after) last a d b
  | loop {i : Instruction} {j : Joint} {before after : Code} {last p r : Int} {a b d : Nat} :
      Joint.ofName? i.name = some j → j.isLoop = true → j ≠ .iter → g.Forks b before j p r →
      Made g after last a b r → Made g (flatten (arm i 0)) (b + 1) (b + 2) d p →
      Made g (before ++ i :: after) last a d b
  | iter {i : Instruction} {before after : Code} {last p r : Int} {a b d : Nat} :
      Joint.ofName? i.name = some .iter → g.Forks b before .iter p r →
      Made g after last a b r →
      g.node? ((b : Int) + 2) = some (.tube (b + 2) [marker (-1)] (b + 1)) →
      Made g (flatten (arm i 0)) (b + 2) (b + 3) d p → Made g (before ++ i :: after) last a d b

section Made

variable {g : Graph} {flat : Code} {last entry : Int} {a b : Nat}

theorem made_entry (made : Made g flat last a b entry) : entry ≠ noNode := by
  cases made with
  | skip active => exact active
  | terminal => decide
  | tube | fork | loop | iter =>
    unfold noNode
    omega

theorem made_size (made : Made g flat last a b entry) : a ≤ b := by
  induction made with
  | skip | terminal => exact Nat.le_refl _
  | tube => exact Nat.le_succ _
  | fork _ _ _ _ _ _ older first second => omega
  | loop _ _ _ _ _ _ older first => omega
  | iter _ _ _ _ _ older first => omega

/-- Code that is compiled makes its nodes in every graph that holds them. -/
theorem compileFlat_made (flat : Code) (last : Int) (nodes : Array Node)
    (holds : g.Holds nodes (compileFlat flat last nodes).2)
    (terminal : g.node? terminalId = some (.tube terminalId [] noNode)) :
    Made g flat last nodes.size (compileFlat flat last nodes).2.size
      (compileFlat flat last nodes).1 := by
  induction count : jointCount flat using Nat.strongRecOn generalizing flat last nodes with
  | ind n ih =>
    cases split : splitAtJoint? flat with
    | none =>
      have straight := splitAtJoint?_none split
      rw [compileFlat_straight split] at holds ⊢
      split at holds
      · rename_i empty
        rw [if_pos empty]
        simp only [Bool.and_eq_true, List.isEmpty_iff, beq_iff_eq] at empty
        obtain ⟨rfl, rfl⟩ := empty
        exact .terminal terminal
      · rename_i other
        rw [if_neg other, Array.size_push]
        exact .tube straight (holds_push holds)
    | some parts =>
      obtain ⟨before, j, i, after⟩ := parts
      obtain ⟨rfl, found, straight⟩ := splitAtJoint?_some split
      have fewer := jointCount_split split
      have older := (compileFlat_compiles after last nodes).added
      have remaining (holds : g.Holds nodes (compileFlat after last nodes).2) :=
        ih (jointCount after) (by omega) after last nodes holds rfl
      have arms : ∀ k last nodes, last ≠ noNode →
          g.Holds nodes (compileArm i.codeArgs[k]? last nodes).2 →
          Made g (flatten (arm i k)) last nodes.size (compileArm i.codeArgs[k]? last nodes).2.size
            (compileArm i.codeArgs[k]? last nodes).1 := by
        intro k last nodes active holds
        cases code : i.codeArgs[k]? with
        | none =>
          rw [arm, code, Option.getD_none, flatten_nil]
          exact .skip active
        | some code' =>
          rw [code] at holds
          rw [arm, code]
          have bound := jointCount_arm code
          exact ih (jointCount (flatten code')) (by omega) (flatten code') last nodes holds rfl
      have size (nodes : Array Node) : (forked nodes before j).size = nodes.size + 2 := by
        simp [forked]
      rw [compileFlat_joint split] at holds ⊢
      generalize compileFlat after last nodes = rest at holds older remaining ⊢
      obtain ⟨r, B⟩ := rest
      dsimp only at holds older remaining ⊢
      rw [Array.size_setIfInBounds]
      cases loops : j.isLoop with
      | false =>
        have other : j ≠ .iter := by
          rintro rfl
          cases loops
        simp only [if_neg other, loops, Bool.false_eq_true, if_false] at holds ⊢
        have one := compileArm_added i.codeArgs[0]? r (forked B before j)
        have two := compileArm_added i.codeArgs[1]? r
          (compileArm i.codeArgs[0]? r (forked B before j)).2
        obtain ⟨tube, joint, inner, arms'⟩ := holds_forked older (added_trans one two) holds
        have behind := remaining inner
        have active := made_entry behind
        have first := arms 0 r _ active (holds_left arms' two)
        have second := arms 1 r _ active (holds_right arms' one)
        rw [size] at first
        exact .fork found loops ⟨straight, tube, joint⟩ behind first second
      | true =>
        simp only [loops, if_true] at holds ⊢
        by_cases iter : j = .iter
        · subst iter
          have wide : ((forked B before .iter).size : Int) = B.size + 2 := by simp [size]
          simp only [if_true, wide] at holds ⊢
          have turn := @added_push (forked B before .iter)
            (.tube ((B.size : Int) + 2) [marker (-1)] ((B.size : Int) + 1))
          have one := compileArm_added i.codeArgs[0]? ((B.size : Int) + 2) ((forked B before .iter).push
            (.tube ((B.size : Int) + 2) [marker (-1)] ((B.size : Int) + 1)))
          obtain ⟨tube, joint, inner, arms'⟩ := holds_forked older (added_trans turn one) holds
          have back := holds_push (holds_left arms' one)
          have first := arms 0 _ _ (by unfold noNode; omega) (holds_right arms' turn)
          rw [Array.size_push, size] at first
          rw [wide] at back
          exact .iter found ⟨straight, tube, joint⟩ (remaining inner) back first
        · simp only [if_neg iter] at holds ⊢
          have one := compileArm_added i.codeArgs[0]? (B.size + 1) (forked B before j)
          obtain ⟨tube, joint, inner, arms'⟩ := holds_forked older one holds
          have first := arms 0 _ _ (by unfold noNode; omega) arms'
          rw [size] at first
          exact .loop found loops iter ⟨straight, tube, joint⟩ (remaining inner) first

theorem build_terminal (code : Code) :
    (Graph.build code).node? terminalId = some (.tube terminalId [] noNode) := by
  have compiled := compileFlat_compiles (flatten code) noNode #[.tube terminalId [] noNode]
  have old := compiled.added.old 0 (by simp)
  rw [terminalId, ← Int.natCast_zero, node?_natCast]
  exact old

/-- All nodes of a compiled graph but the terminal one were made for the code. -/
theorem build_made (code : Code) : Made (Graph.build code) (flatten code) noNode 1
    (Graph.build code).size (Graph.build code).root :=
  compileFlat_made (flatten code) noNode #[.tube terminalId [] noNode] (fun _ _ _ => rfl)
    (build_terminal code)

end Made

/-! ## Regions -/

def Graph.Leads (g : Graph) : Int → Int → Prop :=
  Relation.ReflTransGen fun id target => target ∈ g.successorsOf id

/-- A target that lies between `a` and `b`, or is the node `x`. -/
def Among (a b : Nat) (x t : Int) : Prop := t = x ∨ (a : Int) ≤ t ∧ t < b

/-- What compilation puts at a position: a tube without branching instructions or a joint with two
edges, with targets among those of the region. Only the tube in which a region ends may have no next
node. -/
inductive Graph.Shaped (g : Graph) (a b : Nat) (x : Int) (k : Nat) : Prop where
  | tube {code : Code} {next : Int} :
      g.node? k = some (.tube k code next) → (∀ i ∈ code, Joint.ofName? i.name = none) →
      Among a b x next ∨ next = noNode ∧ (k : Int) = x → Shaped g a b x k
  | joint {j : Joint} {p q : Int} :
      g.node? k = some (.fork k j.name [p, q]) → Among a b x p → Among a b x q → Shaped g a b x k

/-- The nodes from `a` to `b` are a region that is entered at `entry` and ends in `x`. -/
structure Graph.Region (g : Graph) (a b : Nat) (entry x : Int) : Prop where
  enters : Among a b x entry
  nodes : ∀ k, a ≤ k → k < b → g.Shaped a b x k
  reach : ∀ t, Among a b x t → g.Leads entry t

namespace Graph

section Regions

variable {g : Graph} {a b c d : Nat} {entry x y p q r : Int} {k : Nat}

theorem leads_tube {id next : Int} {code : Code} (found : g.node? id = some (.tube id code next))
    (active : next ≠ noNode) : g.Leads id next := by
  apply Relation.ReflTransGen.single
  simp [successorsOf, found, Node.successors, Node.tube, active]

theorem leads_fork {id : Int} {name : String} (found : g.node? id = some (.fork id name [p, q])) :
    g.Leads id p ∧ g.Leads id q := by
  constructor
  · apply Relation.ReflTransGen.single
    simp [successorsOf, found, Node.successors, Node.fork]
  · apply Relation.ReflTransGen.single
    simp [successorsOf, found, Node.successors, Node.fork]

theorem shaped_mono (shaped : g.Shaped a b x k) (wider : ∀ t, Among a b x t → Among c d y t)
    (ends : (k : Int) = x → (k : Int) = y) : g.Shaped c d y k := by
  cases shaped with
  | tube found straight target =>
    refine .tube found straight ?_
    rcases target with among | ⟨none, last⟩
    · exact .inl (wider _ among)
    · exact .inr ⟨none, ends last⟩
  | joint found first second => exact .joint found (wider _ first) (wider _ second)

theorem region_empty (x : Int) : g.Region a a x x where
  enters := .inl rfl
  nodes := fun k lower upper => by omega
  reach := by
    rintro t (rfl | ⟨lower, upper⟩)
    · exact .refl
    · omega

theorem region_tube {code : Code} {next : Int} (found : g.node? a = some (.tube a code next))
    (straight : ∀ i ∈ code, Joint.ofName? i.name = none)
    (ends : next = x ∧ x ≠ noNode ∨ next = noNode ∧ (a : Int) = x) : g.Region a (a + 1) a x where
  enters := .inr ⟨by omega, by omega⟩
  nodes := by
    intro k lower upper
    have same : k = a := by omega
    subst same
    refine .tube found straight ?_
    rcases ends with ⟨same, _⟩ | last
    · exact .inl (.inl same)
    · exact .inr last
  reach := by
    rintro t (rfl | ⟨lower, upper⟩)
    · rcases ends with ⟨rfl, active⟩ | ⟨_, same⟩
      · exact leads_tube found active
      · rw [← same]
        exact .refl
    · have same : t = a := by omega
      rw [same]
      exact .refl

/-- A region that ends in the entry of an older one goes on in it. -/
theorem region_append (later : g.Region b c p entry) (older : g.Region a b entry x)
    (le : a ≤ b) (le' : b ≤ c) : g.Region a c p x := by
  have inner : ∀ t, Among a b x t → Among a c x t := by
    rintro t (same | ⟨lower, upper⟩)
    · exact .inl same
    · exact .inr ⟨lower, by omega⟩
  have outer : ∀ t, Among b c entry t → Among a c x t := by
    rintro t (rfl | ⟨lower, upper⟩)
    · exact inner _ older.enters
    · exact .inr ⟨by omega, upper⟩
  constructor
  · exact outer p later.enters
  · intro k lower upper
    by_cases old : k < b
    · exact shaped_mono (older.nodes k lower old) inner id
    · refine shaped_mono (later.nodes k (by omega) upper) outer fun same => ?_
      -- the entry of the older region is this position only if it has no nodes
      rcases older.enters with ends | ⟨_, below⟩
      · exact same.trans ends
      · omega
  · rintro t (rfl | ⟨lower, upper⟩)
    · exact (later.reach entry (.inl rfl)).trans (older.reach t (.inl rfl))
    · by_cases old : t < b
      · exact (later.reach entry (.inl rfl)).trans (older.reach t (.inr ⟨lower, old⟩))
      · exact later.reach t (.inr ⟨by omega, upper⟩)

/-- A tube, the joint behind it and the regions of its arms, which go on behind the joint or come
back to it. -/
theorem region_joint {before : Code} {j : Joint} {cont : Int} (older : g.Region a b r x)
    (tube : g.node? b = some (.tube b before (b + 1)))
    (straight : ∀ i ∈ before, Joint.ofName? i.name = none)
    (joint : g.node? ((b : Int) + 1) = some (.fork (b + 1) j.name [p, q]))
    (first : g.Region (b + 2) c p cont) (second : g.Region c d q r) (goes : cont = r ∨ cont = b + 1)
    (le : a ≤ b) (le' : b + 2 ≤ c) (le'' : c ≤ d) : g.Region a d b x := by
  have inner : ∀ t, Among a b x t → Among a d x t := by
    rintro t (same | ⟨lower, upper⟩)
    · exact .inl same
    · exact .inr ⟨lower, by omega⟩
  have behind := inner r older.enters
  have right : ∀ t, Among c d r t → Among a d x t := by
    rintro t (rfl | ⟨lower, upper⟩)
    · exact behind
    · exact .inr ⟨by omega, upper⟩
  have left : ∀ t, Among (b + 2) c cont t → Among a d x t := by
    rintro t (rfl | ⟨lower, upper⟩)
    · rcases goes with rfl | rfl
      · exact behind
      · exact .inr ⟨by omega, by omega⟩
    · exact .inr ⟨by omega, by omega⟩
  have entered : g.Leads b (b + 1) := leads_tube tube (by unfold noNode; omega)
  have exits : g.Leads b r := by
    exact (entered.trans (leads_fork joint).2).trans (second.reach r (.inl rfl))
  have last : ∀ k : Nat, b ≤ k → (k : Int) = r → (k : Int) = x := by
    intro k above same
    rcases older.enters with ends | ⟨_, below⟩
    · exact same.trans ends
    · omega
  constructor
  · exact .inr ⟨by omega, by omega⟩
  · intro k lower upper
    by_cases old : k < b
    · exact shaped_mono (older.nodes k lower old) inner id
    · by_cases here : k = b
      · subst here
        exact .tube tube straight (.inl (.inr ⟨by omega, by omega⟩))
      · by_cases forks : k = b + 1
        · subst forks
          have cast : ((b + 1 : Nat) : Int) = b + 1 := by simp
          rw [← cast] at joint
          exact .joint joint (left p first.enters) (right q second.enters)
        · by_cases early : k < c
          · refine shaped_mono (first.nodes k (by omega) early) left fun same => ?_
            rcases goes with rfl | rfl
            · exact last k (by omega) same
            · omega
          · exact shaped_mono (second.nodes k (by omega) upper) right (last k (by omega))
  · rintro t (rfl | ⟨lower, upper⟩)
    · exact exits.trans (older.reach t (.inl rfl))
    · by_cases old : t < b
      · exact exits.trans (older.reach t (.inr ⟨lower, old⟩))
      · by_cases here : t = b
        · rw [here]
          exact .refl
        · by_cases forks : t = b + 1
          · rw [forks]
            exact entered
          · by_cases early : t < c
            · have inside := first.reach t (.inr ⟨by omega, early⟩)
              exact (entered.trans (leads_fork joint).1).trans inside
            · have inside := second.reach t (.inr ⟨by omega, upper⟩)
              exact (entered.trans (leads_fork joint).2).trans inside

end Regions

end Graph

/-! ## Compiled code -/

/-- Code that goes on at `last` ends in `x`: in that node, or else in a tube that has no next node
and is the terminal one or was made for the code. -/
def Graph.Ends (g : Graph) (last : Int) (a b : Nat) (x : Int) : Prop :=
  if last = noNode then
    (∃ code, g.node? x = some (.tube x code noNode)) ∧ (x = terminalId ∨ (a : Int) ≤ x ∧ x < b)
  else x = last

section Compiled

variable {g : Graph} {flat : Code} {last entry : Int} {a b : Nat}

theorem ends_active {x : Int} (active : last ≠ noNode) (ends : g.Ends last a b x) : x = last := by
  rwa [Graph.Ends, if_neg active] at ends

theorem ends_wider {x : Int} {d : Nat} (ends : g.Ends last a b x) (le : b ≤ d) : g.Ends last a d x := by
  unfold Graph.Ends at ends ⊢
  split
  · rename_i none
    rw [if_pos none] at ends
    refine ⟨ends.1, ends.2.imp_right ?_⟩
    omega
  · rename_i active
    rwa [if_neg active] at ends

theorem made_region (made : Made g flat last a b entry) :
    ∃ x, g.Ends last a b x ∧ g.Region a b entry x := by
  induction made with
  | @skip last a active => exact ⟨last, by rw [Graph.Ends, if_neg active], Graph.region_empty last⟩
  | terminal found =>
    refine ⟨terminalId, ?_, Graph.region_empty terminalId⟩
    rw [Graph.Ends, if_pos rfl]
    exact ⟨⟨[], found⟩, .inl rfl⟩
  | @tube flat last a straight found =>
    by_cases active : last = noNode
    · subst active
      refine ⟨a, ?_, Graph.region_tube found straight (.inr ⟨rfl, rfl⟩)⟩
      rw [Graph.Ends, if_pos rfl]
      exact ⟨⟨flat, found⟩, .inr ⟨by omega, by omega⟩⟩
    · refine ⟨last, ?_, Graph.region_tube found straight (.inl ⟨rfl, active⟩)⟩
      rw [Graph.Ends, if_neg active]
  | @fork i j before after last p q r a b c d found branches forks older first second ih ih₁ ih₂ =>
    obtain ⟨x, ends, behind⟩ := ih
    obtain ⟨y, ends₁, left⟩ := ih₁
    obtain ⟨z, ends₂, right⟩ := ih₂
    have active := made_entry older
    rw [ends_active active ends₁] at left
    rw [ends_active active ends₂] at right
    have le := made_size older
    have le' := made_size first
    have le'' := made_size second
    exact ⟨x, ends_wider ends (by omega), Graph.region_joint behind forks.tube forks.straight
      forks.joint left right (.inl rfl) le le' le''⟩
  | @loop i j before after last p r a b d found loops other forks older first ih ih₁ =>
    obtain ⟨x, ends, behind⟩ := ih
    obtain ⟨y, ends₁, left⟩ := ih₁
    rw [ends_active (by unfold noNode; omega) ends₁] at left
    have le := made_size older
    have le' := made_size first
    exact ⟨x, ends_wider ends (by omega), Graph.region_joint behind forks.tube forks.straight
      forks.joint left (Graph.region_empty r) (.inr rfl) le le' (Nat.le_refl d)⟩
  | @iter i before after last p r a b d found forks older back first ih ih₁ =>
    obtain ⟨x, ends, behind⟩ := ih
    obtain ⟨y, ends₁, left⟩ := ih₁
    rw [ends_active (by unfold noNode; omega) ends₁] at left
    have le := made_size older
    have le' := made_size first
    have turn : g.Region (b + 2) (b + 3) ((b : Int) + 2) (b + 1) := by
      have cast : ((b + 2 : Nat) : Int) = b + 2 := by simp
      rw [← cast] at back ⊢
      refine Graph.region_tube back ?_ (.inl ⟨rfl, by unfold noNode; omega⟩)
      exact List.forall_mem_singleton.mpr (marker_straight (-1))
    have body := Graph.region_append left turn (by omega) le'
    exact ⟨x, ends_wider ends (by omega), Graph.region_joint behind forks.tube forks.straight
      forks.joint body (Graph.region_empty r) (.inr rfl) le (by omega) (Nat.le_refl d)⟩

end Compiled

end StackFlow
