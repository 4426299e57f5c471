import StackFlow.Proofs.Balance
import StackFlow.Proofs.GraphCache
import StackFlow.Proofs.Limits
import StackFlow.Proofs.Protection
import StackFlow.Proofs.Refinement
import StackFlow.Proofs.Trails

/-!
Reports of contracts in which no type is named like the mark of failed stacks. A failed stack is
told by the type of its topmost item, so that only a `FAILWITH` fails a stack as long as no other
item comes to have such a type. Main statement: every report shows failures as what a `FAILWITH`
left in the tube that its path ends in, and terminals with all of their items, and its counts agree.
-/

namespace StackFlow

open Micheline (Instruction Code)

/-! ## Items along a run -/

/-- No item of the stack has to do with the type that marks failed stacks. -/
structure Stack.Clean (s : Stack) : Prop where
  within : s.beyond = 0
  items : ∀ x ∈ s.items, x.FailFree

/-- The node is a tube with a `FAILWITH` in it. -/
def Node.HasFailWith (n : Node) : Prop := n.kind = .tube ∧ ∃ i ∈ n.code, i.name = "FAILWITH"

section Nodes

variable {s s' t x y : Stack} {i : Instruction} {code : Code} {n : Node}

theorem not_failed_of_items (free : ∀ x ∈ s.items, x.FailFree) : s.isFailed = false := by
  unfold Stack.isFailed
  cases top : s.items.head? with
  | none => rfl
  | some x => exact FailFree.not_failure (free x (List.mem_of_head? top))

theorem Stack.Clean.not_failed (clean : s.Clean) : s.isFailed = false :=
  not_failed_of_items clean.items

theorem FailedWith.isFailed {reason : Item} (fails : FailedWith reason s) : s.isFailed = true := by
  simp only [Stack.isFailed, Stack.items, fails.hidden, fails.visible]
  rfl

theorem Stack.Clean.all (clean : s.Clean) : s.All Item.FailFree := ⟨clean.within, clean.items⟩

theorem Stack.All.clean (all : s.All Item.FailFree) : s.Clean := ⟨all.within, all.items⟩

theorem joints_failFree : Joint.Preserves Item.FailFree where
  payloads := fun _ free j => payloads_failFree free j
  elem := fun guard free => payload_failFree free (elementTy_failFree (closed_failFree.ty guard free)) _
  rest := fun guard free => payload_failFree free (closed_failFree.ty guard free) _

theorem step_clean (admits : Admits Ty.FailFree i) (clean : s.Clean) {u : Unit}
    (stepped : (Stack.step i).run s = .ok u s') :
    s'.Clean ∨ i.name = "FAILWITH" ∧ ∃ reason, FailedWith reason s' := by
  rcases step_cases closed_failFree admits clean.within clean.all.visible stepped with
    ⟨v, rfl, free⟩ | ⟨_, shifted⟩ | ⟨fails, reason, _, _, rfl⟩
  · exact .inl (clean.all.withVisible free).clean
  · exact .inl (clean.all.shift shifted).clean
  · exact .inr ⟨fails, reason, rfl, rfl, rfl⟩

theorem runCode_clean (admits : ∀ i ∈ code, Admits Ty.FailFree i) (clean : s.Clean)
    (ran : runCode code s = .ok s') :
    s'.Clean ∨ (∃ i ∈ code, i.name = "FAILWITH") ∧ ∃ reason, FailedWith reason s' := by
  induction code generalizing s with
  | nil =>
    cases ran
    exact .inl clean
  | cons i is ih =>
    obtain ⟨first, others⟩ := List.forall_mem_cons.mp admits
    unfold runCode at ran
    rw [if_neg (by simp [clean.not_failed])] at ran
    split at ran
    · rename_i t stepped
      rcases step_clean first clean stepped with clean' | ⟨fails, reason, left⟩
      · refine (ih others clean' ran).imp_right ?_
        rintro ⟨⟨k, among, fails⟩, left⟩
        exact ⟨⟨k, List.mem_cons_of_mem _ among, fails⟩, left⟩
      · cases (runCode_failed left.isFailed is).symm.trans ran
        exact .inr ⟨⟨i, List.mem_cons_self, fails⟩, reason, left⟩
    · cases ran

theorem split_clean {name : String} (clean : s.Clean)
    (branched : (Stack.split name).run s = .ok (x, y) t) : x.Clean ∧ y.Clean := by
  obtain ⟨first, second⟩ := split_all joints_failFree clean.all branched
  exact ⟨first.clean, second.clean⟩

/-- What a node puts out is clean, or it is what a `FAILWITH` in the node has left. -/
theorem flow_clean {outs : List Flight} (admits : ∀ i ∈ n.code, Admits Ty.FailFree i)
    (clean : s.Clean) (flowed : flow n s = .ok outs) : ∀ o ∈ outs,
      o.stack.Clean ∨ n.HasFailWith ∧ ∃ reason, FailedWith reason o.stack := by
  intro o member
  rcases flow_cases flowed with ⟨tube, s', ran, rfl⟩ | ⟨_, x, y, t, a, b, branched, _, rfl⟩
  · rw [List.mem_singleton.mp member]
    rcases runCode_clean admits clean ran with clean' | ⟨fails, reason, left⟩
    · exact .inl ⟨clean'.within, clean'.items⟩
    · exact .inr ⟨⟨tube, fails⟩, reason, left.hidden, left.visible, left.within⟩
  · obtain ⟨first, second⟩ := split_clean clean branched
    rcases List.mem_pair.mp member with rfl | rfl
    · exact .inl first
    · exact .inl second

end Nodes

section Walks

variable {g : Graph} {seed f : Flight} {w : List Nat} {via : Option Int}

/-- A stack on a walk is clean, or a `FAILWITH` has failed it in the last node. -/
theorem walk_clean
    (admits : ∀ id n, g.node? id = some n → ∀ i ∈ n.code, Admits Ty.FailFree i)
    (clean : seed.stack.Clean) (walk : Walk g seed w via f) :
    f.stack.Clean ∨ ∃ id n reason, via = some id ∧ g.node? id = some n ∧ n.HasFailWith ∧
      FailedWith reason f.stack := by
  induction walk with
  | start => exact .inl clean
  | @flow w via f o i _ _ sound taken ih =>
    rcases ih with clean' | ⟨id, _, _, rfl, _, _, left⟩
    · unfold Graph.outputs at taken
      split at taken
      · simp at taken
      · rename_i n found
        split at taken
        · rename_i outs flowed
          refine (flow_clean (admits f.node n found) clean' flowed o
            (List.mem_of_getElem? taken)).imp_right ?_
          rintro ⟨fails, reason, left⟩
          exact ⟨f.node, n, reason, rfl, found, fails, left⟩
        · simp at taken
    · exact absurd ⟨rfl, left.isFailed⟩ sound

end Walks

section Books

variable {g : Graph} {initial : Stack} {budget : Int} {tag : String} {k : Nat} {v : Valve}
  {f : Flight} (wellFormed : g.WellFormed)
  (admits : ∀ id n, g.node? id = some n → ∀ i ∈ n.code, Admits Ty.FailFree i)
  (clean : initial.Clean) (run : Valve.Advances k (Valve.opened g initial budget tag) v)

include wellFormed admits clean run

/-- Every failure is what a `FAILWITH` left in the tube that comes last in the path. -/
theorem failed_left (member : f ∈ v.failed) : ∃ n reason, g.node? f.node = some n ∧
    n.HasFailWith ∧ FailedWith reason f.stack ∧ f.stack.path.getLast? = some f.node := by
  obtain ⟨w, _, o, walk, failed, same⟩ :=
    (enumerates_mem (exact_advances run).failed f).mp (Array.mem_toList_iff.mpr member)
  have follows := walk_follows wellFormed.nodes clean.within walk
  rcases walk_clean admits clean walk with unharmed | ⟨id, n, reason, via, found, fails, left⟩
  · rw [unharmed.not_failed] at failed
    cases failed
  · obtain rfl : f.node = id := Option.some.inj via
    have tube : g.isTube f.node = true := by simp [Graph.isTube, found, fails.1]
    exact ⟨n, reason, found, fails, same ▸ left, same ▸ path_last follows tube⟩

theorem finished_clean (member : f ∈ v.finished) :
    f.stack.Clean ∧ ∃ x, f.stack.path.getLast? = some x := by
  obtain ⟨w, _, _, via, walk, sound, ends⟩ :=
    (enumerates_mem (exact_advances run).finished f).mp (Array.mem_toList_iff.mpr member)
  have follows := walk_follows wellFormed.nodes clean.within walk
  obtain ⟨x, rfl, _, code, found⟩ := walk_ending wellFormed clean.within walk ends
  refine ⟨?_, x, path_last follows (isTube_of_node found)⟩
  rcases walk_clean admits clean walk with unharmed | ⟨_, _, _, _, _, _, left⟩
  · exact unharmed
  · exact absurd ⟨rfl, left.isFailed⟩ sound

end Books

/-! ## Runs behind reports -/

section Runs

variable {signal : Signal} {limit : Int} {v u : Valve} {us : List Valve} {es : List Entry}

theorem unbroken_advances (steps : Valve.Unbroken v us es u) : Valve.Advances us.length v u := by
  induction steps with
  | none => exact .none
  | step _ accepted ih =>
    rw [List.length_append, List.length_singleton]
    exact .step ih accepted

theorem run_drained {fuel : Nat} {t : Array Entry} {r : Run}
    (ended : Valve.run signal limit fuel v t = some r) (whole : r.error = none) :
    r.valve.frontier = [] := by
  induction fuel generalizing v t with
  | zero => cases ended
  | succ fuel ih =>
    rw [Valve.run_succ] at ended
    split at ended
    · rename_i done
      cases ended
      exact Valve.isDone_iff.mp done
    · split at ended
      · cases ended
        cases whole
      · split at ended
        · cases ended
          cases whole
        · exact ih ended

/-- A report is made of where an unbroken run of a valid graph stands. The frontier is empty then, if
the report is not truncated. -/
theorem analyzeGraph_reported {e : Engine} {c : Contract} {g : Graph} {now : String} {r : Report}
    (reported : (e.analyzeGraph signal now c g limit).outcome = .ok r) :
    g.validate supports = .ok () ∧ ∃ us es v,
      Valve.Unbroken (Valve.opened g (c.initialStack e.env) e.maxStacks (e.reportId c)) us es v ∧
      r = Report.ofValve (e.reportId c) c.name now r.truncated v ∧
      (r.truncated = false → v.frontier = []) := by
  unfold Engine.analyzeGraph at reported
  cases valid : Engine.validate g with
  | error err => simp [valid] at reported
  | ok _ =>
    simp only [valid] at reported
    refine ⟨valid, ?_⟩
    cases ended : Valve.run signal limit Valve.patience
        (e.valve g (c.initialStack e.env) (e.reportId c)) #[] with
    | none =>
      simp only [Valve.drain, ended, Option.getD_none] at reported
      cases reported
    | some run =>
      obtain ⟨us, es, steps, _⟩ := Valve.run_unbroken ended
      simp only [Valve.drain, ended, Option.getD_some] at reported
      refine ⟨us, es, run.valve, steps, ?_⟩
      cases stopped : run.error with
      | none =>
        simp only [stopped] at reported
        cases reported
        exact ⟨rfl, fun _ => run_drained ended stopped⟩
      | some err =>
        simp only [stopped] at reported
        split at reported
        · cases reported
          exact ⟨rfl, fun whole => by cases whole⟩
        · cases reported

end Runs

/-! ## Reports -/

/-- No type in the contract is named like the mark of failed stacks. -/
structure Contract.FailFree (c : Contract) : Prop where
  parameter : c.parameter.FailFree
  storage : c.storage.FailFree
  code : ∀ r i is, Nested c.code r (i :: is) → Admits Ty.FailFree i

/-- What a report shows of a path that failed: where it ends, and the failure alone. -/
structure FailureOf (g : Graph) (f : Flight) (p : PathResult) : Prop where
  last : ∃ path, p.path = some path ∧ path.getLast? = some p.node
  tube : ∃ n, g.node? p.node = some n ∧ n.HasFailWith
  shows : ∃ reason, f.stack.items = [Item.failure reason] ∧
    p.top = (Item.failure reason).reduce.text ∧ p.stack = [p.top]

/-- What a report shows of a path that ended: where it ends, and all of its items. -/
structure TerminalOf (f : Flight) (p : PathResult) : Prop where
  last : ∃ path, p.path = some path ∧ path.getLast? = some p.node
  stack : p.stack = f.stack.items.map fun x => x.reduce.text
  top : p.top = p.stack.headD ""
  sound : ∀ x ∈ f.stack.items, x.isFailure = false

/-- A report agrees with where the run stands that it is made of, and with itself. -/
structure Report.Coherent (g : Graph) (budget : Int) (v : Valve) (r : Report) : Prop where
  failures : List.Forall₂ (FailureOf g) v.failed.toList (r.failures.getD [])
  terminals : List.Forall₂ TerminalOf v.finished.toList (r.terminals.getD [])
  budget : 0 < budget → (r.visits.map (·.2)).sum ≤ budget
  paths : r.truncated = false →
    ((r.terminals.getD []).length + (r.failures.getD []).length : Int) =
      1 + ((r.visits.filter fun c => g.jointAt c.1).map (·.2)).sum / 2

section Reports

variable {g : Graph} {f : Flight} {s : Stack} {v : Valve} {budget : Int}

theorem getD_nonEmpty? {α : Type} (xs : List α) : (nonEmpty? xs).getD [] = xs := by
  cases xs <;> rfl

theorem path_shown {node : Int} (last : s.path.getLast? = some node) (id : Int) :
    ∃ path, (PathResult.ofStack id s).path = some path ∧ path.getLast? = some node := by
  refine ⟨s.path, ?_, last⟩
  have some : s.path ≠ [] := by
    rintro none
    rw [none] at last
    cases last
  simp [PathResult.ofStack, nonEmpty?, some]

theorem failure_shown {n : Node} {reason : Item} (found : g.node? f.node = some n)
    (fails : n.HasFailWith) (left : FailedWith reason f.stack)
    (last : f.stack.path.getLast? = some f.node) :
    FailureOf g f (.ofStack f.node f.stack) := by
  have items : f.stack.items = [Item.failure reason] := by
    rw [Stack.items, left.hidden, left.visible]
    rfl
  refine ⟨path_shown last _, ⟨n, found, fails⟩, reason, items, ?_, ?_⟩
  · simp [PathResult.ofStack, items]
  · simp [PathResult.ofStack, items, left.visible]

theorem terminal_shown {x : Int} (clean : f.stack.Clean) (bare : f.stack.cursor = 0)
    (last : f.stack.path.getLast? = some x) :
    TerminalOf f (.ofStack (f.stack.trail.headD noNode) f.stack) := by
  have node : f.stack.trail.headD noNode = x := by
    rw [Stack.path, List.getLast?_reverse] at last
    rw [List.headD_eq_head?_getD, last, Option.getD_some]
  have hidden : f.stack.hidden = [] := by
    unfold Stack.cursor at bare
    exact List.length_eq_zero_iff.mp (by omega)
  have items : f.stack.items = f.stack.visible := by
    rw [Stack.items, hidden, List.nil_append]
  rw [node]
  refine ⟨path_shown last _, ?_, ?_, fun x member => FailFree.not_failure (clean.items x member)⟩
  · rw [items]
    rfl
  · simp only [PathResult.ofStack, items]
    cases f.stack.visible <;> rfl

theorem initialStack_clean {c : Contract} (free : c.FailFree) (env : Env) :
    (c.initialStack env).Clean := by
  have placeholder {t : Ty} (type : t.FailFree) (annots : List String) :
      (Item.placeholder t annots).FailFree := closed_failFree.node _ _ _ _ _ type (by simp)
  have parts := List.forall_mem_cons.mpr ⟨placeholder free.parameter ["parameter"],
    List.forall_mem_singleton.mpr (placeholder free.storage ["storage"])⟩
  have pair := closed_failFree.node _ [] "" none _
    (closed_failFree.pair free.parameter free.storage) parts
  exact ⟨rfl, List.forall_mem_singleton.mpr pair⟩

/-- Markers bring no types. -/
theorem drawn_admits {c : Contract} {i : Instruction} (free : c.FailFree) (drawn : Drawn c.code i) :
    Admits Ty.FailFree i := by
  rcases drawn with ⟨n, rfl⟩ | ⟨r, is, nested⟩
  · intro e member t read
    obtain rfl : e = .int (Decimal.text n) := by
      simpa [Instruction.typeLiterals, marker, Instruction.name, Instruction.literalArgs,
        Instruction.args, Micheline.Arg.literal?] using member
    cases read
  · exact free.code r i is nested

theorem ofValve_coherent {c : Contract} {env : Env} {tag id now : String} {truncated : Bool}
    {us : List Valve} {es : List Entry} (free : c.FailFree)
    (valid : (Graph.build c.code).validate supports = .ok ())
    (steps : Valve.Unbroken
      (Valve.opened (Graph.build c.code) (c.initialStack env) budget tag) us es v)
    (whole : truncated = false → v.frontier = []) :
    (Report.ofValve id c.name now truncated v).Coherent (Graph.build c.code) budget v := by
  have wellFormed := build_wellFormed c.code
  have admits : ∀ id n, (Graph.build c.code).node? id = some n →
      ∀ i ∈ n.code, Admits Ty.FailFree i :=
    fun _ _ found i member => drawn_admits free (build_drawn found i member)
  generalize Graph.build c.code = g at valid steps wellFormed admits ⊢
  have clean := initialStack_clean free env
  have run := unbroken_advances steps
  have chart := Graph.charted_of_validate valid
  have bare := (advances_atDepth chart rfl run).2
  obtain ⟨code, next, root⟩ := wellFormed.root
  have balanced := booked_balanced (booked_unbroken (by simp [root]) steps)
  have failures : (Report.ofValve id c.name now truncated v).failures.getD [] =
      v.failed.toList.map fun f => .ofStack f.node f.stack := getD_nonEmpty? _
  have terminals : (Report.ofValve id c.name now truncated v).terminals.getD [] =
      v.finished.toList.map fun f => .ofStack (f.stack.trail.headD noNode) f.stack :=
    getD_nonEmpty? _
  constructor
  · rw [failures, List.forall₂_map_right_iff, List.forall₂_same]
    intro f member
    obtain ⟨n, reason, found, fails, left, last⟩ :=
      failed_left wellFormed admits clean run (Array.mem_toList_iff.mp member)
    exact failure_shown found fails left last
  · rw [terminals, List.forall₂_map_right_iff, List.forall₂_same]
    intro f member
    have member := Array.mem_toList_iff.mp member
    obtain ⟨unharmed, x, last⟩ := finished_clean wellFormed admits clean run member
    exact terminal_shown unharmed (bare f member) last
  · intro positive
    rw [ofValve_visits _ _ _ balanced.recorded]
    exact balanced.budget positive
  · intro full
    have graph : v.graph = g := Valve.advances_graph run
    have joints : (((Report.ofValve id c.name now truncated v).visits.filter
        fun c => g.jointAt c.1).map (·.2)).sum = (v.jointEntries : Int) := by
      rw [Valve.jointEntries, graph, ← Memo.sizes_sum, Nat.cast_list_sum]
      simp [Report.ofValve, Valve.visits, Function.comp_def, List.filter_map]
    have paths := balanced.paths
    rw [whole full] at paths
    rw [terminals, failures, joints, List.length_map, List.length_map]
    simp only [List.length_nil, Array.length_toList] at paths ⊢
    omega

end Reports

/-! ## Engines with a cache -/

namespace Engine

/-- Apart from the cache, an engine is the same after any calls of the compiler. -/
theorem afterCompiling_settings (e : Engine) (codes : List Code) :
    ∃ cache, e.afterCompiling codes = { e with cache } := by
  induction codes generalizing e with
  | nil => exact ⟨e.cache, rfl⟩
  | cons code codes ih =>
    obtain ⟨cache, rest⟩ := ih (e.compile code).2.2
    rw [afterCompiling, rest]
    rcases e.compile_cases code with ⟨_, _, _, _, _, result⟩ | result
    · exact ⟨cache, by rw [result]⟩
    · exact ⟨cache, by rw [result]⟩

theorem remembers_afterCompiling {e : Engine} {codes : List Code} (remembers : e.Remembers codes)
    (later : List Code) : (e.afterCompiling later).Remembers (later.reverse ++ codes) := by
  induction later generalizing e codes with
  | nil => exact remembers
  | cons code later ih =>
    rw [afterCompiling, List.reverse_cons, List.append_assoc]
    exact ih (remembers_compile remembers code)

/-- An engine with a cache, whatever it has compiled, analyses the graph of the contract. -/
theorem compile_afterCompiling (e : Engine) (size : Int) {before : List Code} {code : Code}
    (apart : ∀ code' ∈ before, code'.fingerprint = code.fingerprint →
      Graph.build code' = Graph.build code) :
    (((e.withCache size).afterCompiling before).compile code).1 = Graph.build code := by
  obtain ⟨code', among, same, graph⟩ :=
    compile_from (remembers_afterCompiling (remembers_withCache e size []) before) code
  rw [graph]
  rcases List.mem_cons.mp among with rfl | among
  · rfl
  · exact apart code' (by simpa using among) same

/-- Every report on a contract in which no type is named like the mark of failed stacks is coherent:
it is made of where a run over all paths stands, its failures are what a `FAILWITH` left, its
terminals show their items, and its counts agree. -/
theorem reports_coherent (e : Engine) (size : Int) {before : List Code} {c : Contract}
    (free : c.FailFree)
    (apart : ∀ code ∈ before, code.fingerprint = c.code.fingerprint →
      Graph.build code = Graph.build c.code)
    {signal : Signal} {now : String} {limit : Int} {r : Report}
    (reported : (((e.withCache size).afterCompiling before).analyzeLimit signal now c
      limit).1.outcome = .ok r) :
    ∃ k v, Valve.Advances k (Valve.opened (Graph.build c.code) (c.initialStack e.env) e.maxStacks
        (e.reportId c)) v ∧
      r = Report.ofValve (e.reportId c) c.name now r.truncated v ∧
      (r.truncated = false → v.frontier = []) ∧
      r.Coherent (Graph.build c.code) e.maxStacks v := by
  simp only [analyzeLimit, compile_afterCompiling e size apart] at reported
  obtain ⟨cache, settings⟩ := afterCompiling_settings (e.withCache size) before
  rw [settings] at reported
  obtain ⟨valid, us, es, v, steps, made, whole⟩ := analyzeGraph_reported reported
  refine ⟨us.length, v, unbroken_advances steps, made, whole, ?_⟩
  rw [made]
  exact ofValve_coherent free valid steps whole

/-! ## A contract with a failing branch -/

section Strict

/-- A contract that fails unless its parameter is true. -/
def strictContract : Contract :=
  { parameter := .leaf "bool", storage := .leaf "unit"
    code := [.op "CAR" [] [], .op "IF" []
      [.code [.op "UNIT" [] []], .code [.op "UNIT" [] [], .op "FAILWITH" [] []]]] }

def strictGraph : Graph :=
  { nodes := #[.tube 0 [] noNode, .tube 1 [.op "CAR" [] []] 2, .fork 2 "IF" [3, 4],
      .tube 3 [.op "UNIT" [] []] 0, .tube 4 [.op "UNIT" [] [], .op "FAILWITH" [] []] 0], root := 1 }

theorem build_strict : Graph.build strictContract.code = strictGraph := by
  cbv

theorem validate_strict : Engine.validate strictGraph = .ok () := by
  cbv

theorem strict_failFree : strictContract.FailFree where
  parameter := by decide
  storage := by decide
  code r i is nested := by
    have source : Micheline.isSource strictContract.code := by decide
    exact isSource_admits (isSource_cons (isSource_nested source nested).2).1

theorem strict_apart : ∀ code ∈ [strictContract.code],
    code.fingerprint = strictContract.code.fingerprint →
      Graph.build code = Graph.build strictContract.code := by
  simp

theorem strict_reported (now : String) : ∃ r,
    (((({} : Engine).withCache 1).afterCompiling [strictContract.code]).analyzeLimit .never now
      strictContract 1000).1.outcome = .ok r ∧
    r.truncated = false ∧ (r.failures.getD []).length = 1 := by
  simp only [analyzeLimit, compile_afterCompiling {} 1 strict_apart]
  obtain ⟨cache, settings⟩ := afterCompiling_settings (({} : Engine).withCache 1)
    [strictContract.code]
  simp only [settings, build_strict]
  generalize settled : ({ ({} : Engine).withCache 1 with cache } : Engine) = e
  have ran : ∃ r, Valve.run .never 1000 5 (e.valve strictGraph
      (strictContract.initialStack e.env) (e.reportId strictContract)) #[] = some r ∧
        r.error = none ∧ r.valve.steps = 4 ∧ r.valve.failed.size = 1 := by
    subst settled
    exact ⟨_, (Valve.run_ok rfl rfl (Valve.advance_eq.trans rfl)).trans
      ((Valve.run_ok rfl rfl (Valve.advance_eq.trans rfl)).trans
        ((Valve.run_ok rfl rfl (Valve.advance_eq.trans rfl)).trans
          ((Valve.run_ok rfl rfl (Valve.advance_eq.trans rfl)).trans (Valve.run_succ.trans rfl)))),
      rfl, rfl, rfl⟩
  obtain ⟨r, ran, drained, steps, failed⟩ := ran
  refine ⟨_, run_analyzeGraph validate_strict ran drained (by rw [steps]; decide), rfl, ?_⟩
  rw [Report.ofValve, getD_nonEmpty?, List.length_map, Array.length_toList, failed]

theorem strict_report_coherent : ∃ r v,
    (((({} : Engine).withCache 1).afterCompiling [strictContract.code]).analyzeLimit .never "now"
      strictContract 1000).1.outcome = .ok r ∧
    r.truncated = false ∧ (r.failures.getD []).length = 1 ∧
    r.Coherent (Graph.build strictContract.code) 50000 v := by
  obtain ⟨r, reported, whole, failures⟩ := strict_reported "now"
  obtain ⟨_, v, _, _, _, coherent⟩ :=
    reports_coherent {} 1 strict_failFree strict_apart reported
  exact ⟨r, v, reported, whole, failures, coherent⟩

end Strict

end Engine

end StackFlow
