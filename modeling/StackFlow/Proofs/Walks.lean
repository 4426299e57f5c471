import Mathlib.Data.List.Shortlex
import StackFlow.Proofs.Valve

/-!
The walks of a graph, and the valve as their enumeration. A walk is given by the outputs that it
takes at the nodes it flows through. Main statement: after every number of steps, the frontier, the
ended paths, the failed paths and the recorded stacks are each the exact list of the walks of one
kind, in order and without repetition, however many walks share a node.
-/

namespace StackFlow

/-- What the node of a flight puts out, nothing if it cannot. -/
def Graph.outputs (g : Graph) (f : Flight) : List Flight :=
  match g.node? f.node with
  | none => []
  | some n =>
    match flow n f.stack with
    | .ok outs => outs
    | .error _ => []

/-- A walk has failed when the node that it came through left a failed stack. The seed came through
no node. -/
def Fails (via : Option Int) (f : Flight) : Prop := via.isSome ∧ f.stack.isFailed = true

/-- `Walk g seed w via f`: from `seed`, taking output `w[i]` at the `i`-th node, a stack stands at
`f`, behind the node `via`. -/
inductive Walk (g : Graph) (seed : Flight) : List Nat → Option Int → Flight → Prop where
  | start : Walk g seed [] none seed
  | flow {w : List Nat} {via : Option Int} {f o : Flight} {i : Nat} :
      Walk g seed w via f → f.node ≠ noNode → ¬ Fails via f → (g.outputs f)[i]? = some o →
        Walk g seed (w ++ [i]) (some f.node) o

/-- `xs` lists what `P` relates to walks, by increasing walk and each walk once. -/
def Enumerates {α : Type} (before : List Nat → List Nat → Prop) (P : List Nat → α → Prop)
    (xs : List α) : Prop :=
  ∃ ps : List (List Nat × α), ps.map Prod.snd = xs ∧ ps.Pairwise (fun p q => before p.1 q.1) ∧
    ∀ w x, (w, x) ∈ ps ↔ P w x

/-- By output numbers. -/
abbrev Lexical : List Nat → List Nat → Prop := List.Lex (· < ·)

/-- By length, and then by output numbers. -/
abbrev ByLength : List Nat → List Nat → Prop := List.Shortlex (· < ·)

section Kinds

variable (g : Graph) (seed : Flight) (k : Nat)

/-- Walks through exactly `k` nodes that go on. The seed is in flight until the first step, also
where it has nowhere to go. -/
def InFlight (w : List Nat) (f : Flight) : Prop :=
  w.length = k ∧ ∃ via, Walk g seed w via f ∧ ¬ Fails via f ∧ (k = 0 ∨ f.node ≠ noNode)

/-- Walks through at most `k` nodes that ended without failure. -/
def Ended (w : List Nat) (f : Flight) : Prop :=
  0 < k ∧ w.length ≤ k ∧ ∃ via, Walk g seed w via f ∧ ¬ Fails via f ∧ f.node = noNode

/-- Walks through at most `k` nodes that failed, at the node that failed them. -/
def Broken (w : List Nat) (f : Flight) : Prop :=
  w.length ≤ k ∧ ∃ o, Walk g seed w (some f.node) o ∧ o.stack.isFailed = true ∧ o.stack = f.stack

/-- The stacks put out by a node at the end of walks through at most `k` nodes. -/
def PutOut (w : List Nat) (entry : Int × Stack) : Prop :=
  w.length ≤ k ∧ ∃ o, Walk g seed w (some entry.1) o ∧ o.stack = entry.2

end Kinds

/-! ## Enumerations -/

section Enumerations

variable {α β : Type} {before : List Nat → List Nat → Prop} {P Q : List Nat → α → Prop}
  {xs ys : List α}

theorem enumerates_nil (empty : ∀ w x, ¬ P w x) : Enumerates before P [] :=
  ⟨[], rfl, .nil, fun w x => by simpa using empty w x⟩

theorem enumerates_single {w : List Nat} {x : α} (only : ∀ w' x', P w' x' ↔ w' = w ∧ x' = x) :
    Enumerates before P [x] :=
  ⟨[(w, x)], rfl, List.pairwise_singleton _ _, fun w' x' => by simpa using (only w' x').symm⟩

theorem enumerates_congr (same : ∀ w x, P w x ↔ Q w x) (h : Enumerates before P xs) :
    Enumerates before Q xs := by
  obtain ⟨ps, ends, sorted, exact_⟩ := h
  exact ⟨ps, ends, sorted, fun w x => (exact_ w x).trans (same w x)⟩

theorem enumerates_mem (h : Enumerates before P xs) (x : α) : x ∈ xs ↔ ∃ w, P w x := by
  obtain ⟨ps, rfl, _, members⟩ := h
  constructor
  · intro hx
    obtain ⟨⟨w, y⟩, hp, rfl⟩ := List.mem_map.mp hx
    exact ⟨w, (members w y).mp hp⟩
  · rintro ⟨w, hw⟩
    exact List.mem_map.mpr ⟨(w, x), (members w x).mpr hw, rfl⟩

/-- The order may be changed to one that agrees on the walks listed. -/
theorem enumerates_order {after : List Nat → List Nat → Prop} (h : Enumerates before P xs)
    (agree : ∀ w w' x x', P w x → P w' x' → before w w' → after w w') : Enumerates after P xs := by
  obtain ⟨ps, ends, sorted, members⟩ := h
  refine ⟨ps, ends, sorted.imp_of_mem ?_, members⟩
  intro p q hp hq hpq
  exact agree p.1 q.1 p.2 q.2 ((members _ _).mp hp) ((members _ _).mp hq) hpq

theorem enumerates_append (hP : Enumerates before P xs) (hQ : Enumerates before Q ys)
    (apart : ∀ w w' x x', P w x → Q w' x' → before w w') :
    Enumerates before (fun w x => P w x ∨ Q w x) (xs ++ ys) := by
  obtain ⟨ps, rfl, sortedP, membersP⟩ := hP
  obtain ⟨qs, rfl, sortedQ, membersQ⟩ := hQ
  refine ⟨ps ++ qs, by simp, List.pairwise_append.mpr ⟨sortedP, sortedQ, ?_⟩, ?_⟩
  · intro p hp q hq
    exact apart p.1 q.1 p.2 q.2 ((membersP _ _).mp hp) ((membersQ _ _).mp hq)
  · intro w x
    rw [List.mem_append, membersP, membersQ]

theorem enumerates_filterMap (h : Enumerates before P xs) (pick : α → Option β) :
    Enumerates before (fun w y => ∃ x, P w x ∧ pick x = some y) (xs.filterMap pick) := by
  obtain ⟨ps, rfl, sorted, members⟩ := h
  refine ⟨ps.filterMap fun p => (pick p.2).map fun y => (p.1, y), ?_, ?_, ?_⟩
  · rw [List.map_filterMap, List.filterMap_map]
    congr 1
    funext p
    simp [Option.map_map, Function.comp_def]
  · rw [List.pairwise_filterMap]
    apply sorted.imp
    intro p q hpq b hb c hc
    obtain ⟨y, _, rfl⟩ := Option.map_eq_some_iff.mp hb
    obtain ⟨z, _, rfl⟩ := Option.map_eq_some_iff.mp hc
    exact hpq
  · intro w y
    rw [List.mem_filterMap]
    constructor
    · rintro ⟨p, hp, he⟩
      obtain ⟨z, hz, he⟩ := Option.map_eq_some_iff.mp he
      cases he
      exact ⟨p.2, (members _ _).mp hp, hz⟩
    · rintro ⟨x, hx, hy⟩
      exact ⟨(w, x), (members _ _).mpr hx, by simp [hy]⟩

theorem lex_append {w w' u u' : List Nat} (h : Lexical w w') (same : w.length = w'.length) :
    Lexical (w ++ u) (w' ++ u') := by
  induction h with
  | nil => simp at same
  | cons h ih => exact .cons (ih (by simpa using same))
  | rel h => exact .rel h

theorem lex_last {w : List Nat} {i j : Nat} (h : i < j) : Lexical (w ++ [i]) (w ++ [j]) :=
  List.Lex.append_left _ (.rel h) w

/-- Walks of one length, each followed by all that comes next, stay in order. -/
theorem enumerates_expand {k : Nat} (h : Enumerates Lexical P xs)
    (lengths : ∀ w x, P w x → w.length = k) (next : α → List β) :
    Enumerates Lexical (fun w' y => ∃ w i x, w' = w ++ [i] ∧ P w x ∧ (next x)[i]? = some y)
      (xs.flatMap next) := by
  obtain ⟨ps, rfl, sorted, members⟩ := h
  refine ⟨ps.flatMap fun p => (next p.2).mapIdx fun i y => (p.1 ++ [i], y), ?_, ?_, ?_⟩
  · rw [List.map_flatMap, List.flatMap_map]
    congr 1
    funext p
    apply List.ext_getElem?
    intro i
    simp [List.getElem?_mapIdx]
  · rw [List.pairwise_flatMap]
    constructor
    · intro p _
      rw [List.pairwise_iff_getElem]
      intro i j hi hj hij
      simpa using lex_last hij
    · apply sorted.imp_of_mem
      intro p q hp hq hpq a ha b hb
      obtain ⟨i, _, rfl⟩ := List.mem_mapIdx.mp ha
      obtain ⟨j, _, rfl⟩ := List.mem_mapIdx.mp hb
      have hl := lengths _ _ ((members _ _).mp hp)
      have hr := lengths _ _ ((members _ _).mp hq)
      exact lex_append hpq (hl.trans hr.symm)
  · intro w' y
    simp only [List.mem_flatMap, List.mem_mapIdx]
    constructor
    · rintro ⟨p, hp, i, hi, he⟩
      cases he
      exact ⟨p.1, i, p.2, rfl, (members _ _).mp hp, List.getElem?_eq_getElem hi⟩
    · rintro ⟨w, i, x, rfl, hx, hy⟩
      obtain ⟨hi, rfl⟩ := List.getElem?_eq_some_iff.mp hy
      exact ⟨(w, x), (members _ _).mpr hx, i, hi, rfl⟩

end Enumerations

/-! ## Steps -/

section Steps

variable {g : Graph} {seed : Flight} {k : Nat} {v v' : Valve}

theorem walk_nil {via : Option Int} {f : Flight} (walk : Walk g seed [] via f) :
    via = none ∧ f = seed := by
  generalize h : ([] : List Nat) = w at walk
  cases walk with
  | start => exact ⟨rfl, rfl⟩
  | flow _ _ _ _ => simp at h

theorem walk_snoc {w : List Nat} {i : Nat} {via : Option Int} {o : Flight}
    (walk : Walk g seed (w ++ [i]) via o) :
    ∃ via' f, Walk g seed w via' f ∧ f.node ≠ noNode ∧ ¬ Fails via' f ∧
      (g.outputs f)[i]? = some o ∧ via = some f.node := by
  generalize h : w ++ [i] = w' at walk
  cases walk with
  | start => simp at h
  | flow walk active sound taken =>
    obtain ⟨rfl, last⟩ := List.append_inj' h rfl
    cases last
    exact ⟨_, _, walk, active, sound, taken, rfl⟩

/-- A walk through `k + 1` nodes takes an output of a flight that went on after `k`. -/
theorem walk_succ (active : ∀ w f, InFlight g seed k w f → f.node ≠ noNode) {w' : List Nat}
    {id : Int} {o : Flight} :
    w'.length = k + 1 ∧ Walk g seed w' (some id) o ↔
      ∃ w i f, w' = w ++ [i] ∧ InFlight g seed k w f ∧ (g.outputs f)[i]? = some o ∧
        id = f.node := by
  constructor
  · rintro ⟨length, walk⟩
    rcases List.eq_nil_or_concat w' with rfl | ⟨w, i, rfl⟩
    · simp at length
    · rw [List.concat_eq_append] at walk length ⊢
      obtain ⟨via, f, before, node, sound, taken, last⟩ := walk_snoc walk
      refine ⟨w, i, f, rfl, ⟨?_, via, before, sound, .inr node⟩, taken, Option.some.inj last⟩
      simpa using length
  · rintro ⟨w, i, f, rfl, flight, taken, rfl⟩
    obtain ⟨length, via, walk, sound, _⟩ := id flight
    exact ⟨by simp [length], .flow walk (active w f flight) sound taken⟩

/-- What the books of a valve hold after `k` steps. -/
structure Exact (g : Graph) (seed : Flight) (k : Nat) (v : Valve) : Prop where
  frontier : Enumerates Lexical (InFlight g seed k) v.frontier
  finished : Enumerates ByLength (Ended g seed k) v.finished.toList
  failed : Enumerates ByLength (Broken g seed k) v.failed.toList
  memo : ∀ id, Enumerates ByLength (fun w s => PutOut g seed k w (id, s)) (v.memoAt id)

theorem outputs_of_passage {f : Flight} {p : Valve.Passage} (active : f.node ≠ noNode)
    (passed : v.passage f = .ok p) : ∃ n, p = .through f.node n (v.graph.outputs f) := by
  rcases Valve.passage_ok passed with ⟨ended, _⟩ | ⟨n, outs, _, found, flowed, rfl⟩
  · exact absurd ended active
  · refine ⟨n, ?_⟩
    simp only [Graph.outputs, found, flowed]

theorem flatMap_passages {β : Type} {fs : List Flight} {ps : List Valve.Passage}
    (passed : List.Forall₂ (fun f p => v.passage f = .ok p) fs ps)
    (part : Valve.Passage → List β) (of : Flight → List β)
    (agree : ∀ f ∈ fs, ∀ p, v.passage f = .ok p → part p = of f) :
    ps.flatMap part = fs.flatMap of := by
  induction passed with
  | nil => rfl
  | cons first _ ih =>
    rw [List.flatMap_cons, List.flatMap_cons, agree _ List.mem_cons_self _ first]
    rw [ih fun f hf => agree f (List.mem_cons_of_mem _ hf)]

/-- Each stack put out in a step, with the node that put it out. -/
def arrivals (g : Graph) (fs : List Flight) : List (Int × Flight) :=
  fs.flatMap fun f => (g.outputs f).map fun o => (f.node, o)

theorem arrivals_enumerate (exact_ : Enumerates Lexical (InFlight g seed k) v.frontier)
    (active : ∀ w f, InFlight g seed k w f → f.node ≠ noNode) :
    Enumerates Lexical (fun w a => w.length = k + 1 ∧ Walk g seed w (some a.1) a.2)
      (arrivals g v.frontier) := by
  have expanded := enumerates_expand exact_ (fun w f h => h.1)
    (fun f => (g.outputs f).map fun o => (f.node, o))
  refine enumerates_congr ?_ expanded
  rintro w' ⟨id, o⟩
  rw [walk_succ active]
  constructor
  · rintro ⟨w, i, f, rfl, flight, taken⟩
    rw [List.getElem?_map, Option.map_eq_some_iff] at taken
    obtain ⟨o', taken, same⟩ := taken
    cases same
    exact ⟨w, i, f, rfl, flight, taken, rfl⟩
  · rintro ⟨w, i, f, rfl, flight, taken, rfl⟩
    exact ⟨w, i, f, rfl, flight, by simp [taken]⟩

def going? (a : Int × Flight) : Option Flight :=
  if !a.2.stack.isFailed && a.2.node != noNode then some a.2 else none

def ended? (a : Int × Flight) : Option Flight :=
  if !a.2.stack.isFailed && a.2.node == noNode then some a.2 else none

def broken? (a : Int × Flight) : Option Flight :=
  if a.2.stack.isFailed then some ⟨a.1, a.2.stack⟩ else none

/-- A kind of arrival, read off the arrivals of a step or off the passages of its nodes. -/
theorem flatMap_eq_arrivals {β : Type} {ps : List Valve.Passage}
    (passed : List.Forall₂ (fun f p => v.passage f = .ok p) v.frontier ps)
    (active : ∀ f ∈ v.frontier, f.node ≠ noNode) (part : Valve.Passage → List β)
    (pick : Int × Flight → Option β)
    (agree : ∀ id n outs, part (.through id n outs) = outs.filterMap fun o => pick (id, o)) :
    ps.flatMap part = (arrivals v.graph v.frontier).filterMap pick := by
  rw [arrivals, List.filterMap_flatMap]
  apply flatMap_passages passed
  intro f member p through
  obtain ⟨n, rfl⟩ := outputs_of_passage (active f member) through
  rw [agree, List.filterMap_map]
  rfl

theorem bylength_of_lexical {P : List Nat → Int × Flight → Prop} {xs : List (Int × Flight)}
    (h : Enumerates Lexical (fun w a => w.length = k ∧ P w a) xs) :
    Enumerates ByLength (fun w a => w.length = k ∧ P w a) xs :=
  enumerates_order h fun _ _ _ _ hw hw' lex => .of_lex (hw.1.trans hw'.1.symm) lex

theorem enumerates_grow {β : Type} {old new : List Nat → β → Prop} {xs : List β}
    {P : List Nat → Int × Flight → Prop} {as : List (Int × Flight)} {pick : Int × Flight → Option β}
    (books : Enumerates ByLength old xs) (short : ∀ w x, old w x → w.length ≤ k)
    (fresh : Enumerates Lexical (fun w a => w.length = k + 1 ∧ P w a) as)
    (split : ∀ w x, new w x ↔ old w x ∨ ∃ a, (w.length = k + 1 ∧ P w a) ∧ pick a = some x) :
    Enumerates ByLength new (xs ++ as.filterMap pick) := by
  have added := enumerates_filterMap (bylength_of_lexical fresh) pick
  refine enumerates_congr (fun w x => (split w x).symm) (enumerates_append books added ?_)
  rintro w w' x x' before ⟨a, ⟨after, _⟩, _⟩
  have := short w x before
  exact .of_length_lt (by omega)

theorem atMost_succ {w : List Nat} {Q : Prop} :
    w.length ≤ k + 1 ∧ Q ↔ (w.length ≤ k ∧ Q) ∨ (w.length = k + 1 ∧ Q) := by
  constructor
  · rintro ⟨length, q⟩
    rcases Nat.lt_or_ge k w.length with h | h
    · exact .inr ⟨by omega, q⟩
    · exact .inl ⟨h, q⟩
  · rintro (⟨length, q⟩ | ⟨length, q⟩)
    · exact ⟨by omega, q⟩
    · exact ⟨by omega, q⟩

theorem via_of_length {w : List Nat} {via : Option Int} {f : Flight} (walk : Walk g seed w via f)
    (length : w.length = k + 1) : ∃ id, via = some id := by
  cases walk with
  | start => simp at length
  | flow _ _ _ _ => exact ⟨_, rfl⟩

theorem inFlight_succ {w : List Nat} {f : Flight} :
    InFlight g seed (k + 1) w f ↔
      ∃ a : Int × Flight, (w.length = k + 1 ∧ Walk g seed w (some a.1) a.2) ∧
        going? a = some f := by
  constructor
  · rintro ⟨length, via, walk, sound, node⟩
    obtain ⟨id, rfl⟩ := via_of_length walk length
    refine ⟨(id, f), ⟨length, walk⟩, ?_⟩
    simp_all [Fails, going?]
  · rintro ⟨⟨id, o⟩, ⟨length, walk⟩, picked⟩
    unfold going? at picked
    split at picked
    · rename_i going
      cases Option.some.inj picked
      refine ⟨length, some id, walk, ?_, .inr ?_⟩ <;> simp_all [Fails]
    · contradiction

theorem ended_succ (active : ∀ w f, InFlight g seed k w f → f.node ≠ noNode) {w : List Nat}
    {f : Flight} :
    Ended g seed (k + 1) w f ↔ Ended g seed k w f ∨
      ∃ a : Int × Flight, (w.length = k + 1 ∧ Walk g seed w (some a.1) a.2) ∧
        ended? a = some f := by
  constructor
  · rintro ⟨_, length, via, walk, sound, node⟩
    rcases atMost_succ.mp ⟨length, trivial⟩ with ⟨short, _⟩ | ⟨length, _⟩
    · -- before the first step only the seed could have ended, and it is in flight
      rcases Nat.eq_zero_or_pos k with rfl | positive
      · have flight : InFlight g seed 0 w f := ⟨by omega, via, walk, sound, .inl rfl⟩
        exact absurd node (active w f flight)
      · exact .inl ⟨positive, short, via, walk, sound, node⟩
    · obtain ⟨id, rfl⟩ := via_of_length walk length
      refine .inr ⟨(id, f), ⟨length, walk⟩, ?_⟩
      simp_all [Fails, ended?]
  · rintro (⟨_, short, rest⟩ | ⟨⟨id, o⟩, ⟨length, walk⟩, picked⟩)
    · exact ⟨by omega, by omega, rest⟩
    · unfold ended? at picked
      split at picked
      · cases Option.some.inj picked
        refine ⟨by omega, by omega, some id, walk, ?_, ?_⟩ <;> simp_all [Fails]
      · contradiction

theorem broken_succ {w : List Nat} {f : Flight} :
    Broken g seed (k + 1) w f ↔ Broken g seed k w f ∨
      ∃ a : Int × Flight, (w.length = k + 1 ∧ Walk g seed w (some a.1) a.2) ∧
        broken? a = some f := by
  simp only [Broken]
  rw [atMost_succ]
  refine or_congr Iff.rfl ?_
  constructor
  · rintro ⟨length, o, walk, failed, stack⟩
    refine ⟨(f.node, o), ⟨length, walk⟩, ?_⟩
    rw [broken?, if_pos failed, stack]
  · rintro ⟨⟨id, o⟩, ⟨length, walk⟩, picked⟩
    unfold broken? at picked
    split at picked
    · rename_i failed
      cases Option.some.inj picked
      exact ⟨length, o, walk, failed, rfl⟩
    · contradiction

/-- The stack that came out of the node, if it was this one. -/
def putOut? (id : Int) (a : Int × Flight) : Option Stack := if a.1 = id then some a.2.stack else none

theorem putOut_succ {w : List Nat} {id : Int} {s : Stack} :
    PutOut g seed (k + 1) w (id, s) ↔ PutOut g seed k w (id, s) ∨
      ∃ a : Int × Flight, (w.length = k + 1 ∧ Walk g seed w (some a.1) a.2) ∧
        putOut? id a = some s := by
  simp only [PutOut]
  rw [atMost_succ]
  refine or_congr Iff.rfl ?_
  constructor
  · rintro ⟨length, o, walk, stack⟩
    exact ⟨(id, o), ⟨length, walk⟩, by simp [putOut?, stack]⟩
  · rintro ⟨⟨k, o⟩, ⟨length, walk⟩, picked⟩
    obtain ⟨rfl, stack⟩ := Option.ite_none_right_eq_some.mp picked
    exact ⟨length, o, walk, Option.some.inj stack⟩

theorem filter_eq_filterMap {α : Type} (p : α → Bool) (xs : List α) :
    xs.filter p = xs.filterMap fun x => if p x then some x else none := by
  rw [← List.filterMap_eq_filter]
  rfl

theorem map_filter_eq_filterMap {α β : Type} (p : α → Bool) (h : α → β) (xs : List α) :
    (xs.filter p).map h = xs.filterMap fun x => if p x then some (h x) else none := by
  rw [filter_eq_filterMap, List.map_filterMap]
  congr 1
  funext x
  split <;> rfl

/-- One step keeps the books exact, if no flight of the frontier has ended already. -/
theorem exact_step (books : Exact g seed k v) (same : v.graph = g)
    (active : ∀ f ∈ v.frontier, f.node ≠ noNode) {canceled : Nat → Bool} {entries : List Entry}
    (accepted : v.advance canceled = .ok (v', entries)) : Exact g seed (k + 1) v' := by
  obtain ⟨ps, passed, rfl⟩ := Valve.advance_ok accepted
  have going : ∀ w f, InFlight g seed k w f → f.node ≠ noNode := fun w f flight =>
    active f ((enumerates_mem books.frontier f).mpr ⟨w, flight⟩)
  have fresh := arrivals_enumerate books.frontier going
  rw [← same] at fresh
  constructor
  · have next := flatMap_eq_arrivals passed active Valve.Passage.next going?
      (fun _ _ _ => filter_eq_filterMap _ _)
    change Enumerates _ _ (ps.flatMap Valve.Passage.next)
    rw [next, ← same]
    exact enumerates_congr (fun _ _ => inFlight_succ.symm) (enumerates_filterMap fresh _)
  · have finished := flatMap_eq_arrivals passed active Valve.Passage.finished ended?
      (fun _ _ _ => filter_eq_filterMap _ _)
    change Enumerates _ _ (v.finished ++ ps.flatMap Valve.Passage.finished).toList
    rw [Array.toList_appendList, finished, ← same]
    rw [← same] at books going
    exact enumerates_grow books.finished (fun _ _ h => h.2.1) fresh fun _ _ => ended_succ going
  · have failed := flatMap_eq_arrivals passed active Valve.Passage.failed broken?
      (fun _ _ _ => map_filter_eq_filterMap _ _ _)
    change Enumerates _ _ (v.failed ++ ps.flatMap Valve.Passage.failed).toList
    rw [Array.toList_appendList, failed, ← same]
    rw [← same] at books
    exact enumerates_grow books.failed (fun _ _ h => h.1) fresh fun _ _ => broken_succ
  · intro id
    have recorded := flatMap_eq_arrivals passed active Valve.Passage.recorded
      (fun a => some (a.1, a.2.stack)) (fun _ _ _ => List.filterMap_eq_map'.symm ▸ rfl)
    have arrived : stacksOf id (ps.flatMap Valve.Passage.recorded) =
        (arrivals v.graph v.frontier).filterMap (putOut? id) := by
      rw [recorded, stacksOf, List.filterMap_filterMap]
      rfl
    rw [Valve.memoAt_commit passed, arrived, ← same]
    rw [← same] at books
    exact enumerates_grow (books.memo id) (fun _ _ h => h.1) fresh fun _ _ => putOut_succ

theorem walk_stuck (ended : seed.node = noNode) {w : List Nat} {via : Option Int} {f : Flight}
    (walk : Walk g seed w via f) : w = [] := by
  induction walk with
  | start => rfl
  | flow before active _ _ ih =>
    subst ih
    obtain ⟨_, rfl⟩ := walk_nil before
    exact absurd ended active

end Steps

/-! ## Runs -/

section Runs

variable {g : Graph} {initial : Stack} {budget : Int} {tag : String} {k : Nat} {v : Valve}

theorem exact_opened : Exact g ⟨g.root, initial⟩ 0 (Valve.opened g initial budget tag) := by
  constructor
  · apply enumerates_single (w := [])
    intro w f
    constructor
    · rintro ⟨length, via, walk, _⟩
      cases List.length_eq_zero_iff.mp length
      exact ⟨rfl, (walk_nil walk).2⟩
    · rintro ⟨rfl, rfl⟩
      exact ⟨rfl, none, .start, by simp [Fails], .inl rfl⟩
  · exact enumerates_nil fun w f h => Nat.lt_irrefl 0 h.1
  · apply enumerates_nil
    rintro w f ⟨length, o, walk, _⟩
    cases List.length_eq_zero_iff.mp (Nat.le_zero.mp length)
    cases (walk_nil walk).1
  · intro id
    apply enumerates_nil
    rintro w f ⟨length, o, walk, _⟩
    cases List.length_eq_zero_iff.mp (Nat.le_zero.mp length)
    cases (walk_nil walk).1

/-- The first step retires a seed that has nowhere to go. -/
theorem exact_retired (ended : g.root = noNode) {canceled : Nat → Bool} {entries : List Entry}
    (accepted : (Valve.opened g initial budget tag).advance canceled = .ok (v, entries)) :
    Exact g ⟨g.root, initial⟩ 1 v := by
  obtain ⟨ps, passed, rfl⟩ := Valve.advance_ok accepted
  have retired : ps = [.ended ⟨g.root, initial⟩] := by
    cases passed with
    | cons first rest =>
      cases rest
      rcases Valve.passage_ok first with ⟨_, rfl⟩ | ⟨_, _, active, _⟩
      · rfl
      · exact absurd ended active
  subst retired
  have stuck : ∀ w via f, Walk g ⟨g.root, initial⟩ w via f →
      w = [] ∧ via = none ∧ f = ⟨g.root, initial⟩ := by
    intro w via f walk
    cases walk_stuck ended walk
    exact ⟨rfl, walk_nil walk⟩
  constructor
  · apply enumerates_nil
    rintro w f ⟨length, via, walk, _⟩
    simp [(stuck w via f walk).1] at length
  · apply enumerates_single (w := [])
    intro w f
    constructor
    · rintro ⟨_, _, via, walk, _⟩
      exact ⟨(stuck w via f walk).1, (stuck w via f walk).2.2⟩
    · rintro ⟨rfl, rfl⟩
      exact ⟨Nat.one_pos, by simp, none, .start, by simp [Fails], ended⟩
  · apply enumerates_nil
    rintro w f ⟨_, o, walk, _⟩
    cases (stuck _ _ _ walk).2.1
  · intro id
    apply enumerates_nil
    rintro w f ⟨_, o, walk, _⟩
    cases (stuck _ _ _ walk).2.1

theorem exact_advances (run : Valve.Advances k (Valve.opened g initial budget tag) v) :
    Exact g ⟨g.root, initial⟩ k v := by
  generalize start : Valve.opened g initial budget tag = v₀ at run
  induction run with
  | none => subst start; exact exact_opened
  | @step k v₀ v v' _ _ before accepted ih =>
    subst start
    have books := ih rfl
    have same : v.graph = g := Valve.advances_graph before
    by_cases ended : k = 0 ∧ g.root = noNode
    · obtain ⟨rfl, ended⟩ := ended
      cases before
      exact exact_retired ended accepted
    · refine exact_step books same ?_ accepted
      intro f member
      obtain ⟨w, length, via, walk, _, going⟩ := (enumerates_mem books.frontier f).mp member
      rcases going with rfl | going
      · cases List.length_eq_zero_iff.mp length
        cases (walk_nil walk).2
        exact fun root => ended ⟨rfl, root⟩
      · exact going

/-- After `k` steps the frontier holds the walks through exactly `k` nodes that go on, and the books
hold those through at most `k` nodes that ended, that failed, and that left a stack at a node. -/
theorem valve_enumerates_walks (g : Graph) (initial : Stack) (budget : Int) (tag : String) (k : Nat)
    (v : Valve) (run : Valve.Advances k (Valve.opened g initial budget tag) v) :
    Enumerates Lexical (InFlight g ⟨g.root, initial⟩ k) v.frontier ∧
    Enumerates ByLength (Ended g ⟨g.root, initial⟩ k) v.finished.toList ∧
    Enumerates ByLength (Broken g ⟨g.root, initial⟩ k) v.failed.toList ∧
    ∀ id, Enumerates ByLength (fun w s => PutOut g ⟨g.root, initial⟩ k w (id, s))
      (v.memoAt id) := by
  have books := exact_advances run
  exact ⟨books.frontier, books.finished, books.failed, books.memo⟩

/-- Both edges of a joint lead to one tube. -/
def sharedTube : Graph := { nodes := #[.fork 0 "IF" [1, 1], .tube 1 [] noNode], root := 0 }

/-- Two walks share the tube, and both are listed. -/
theorem shared_tube_walks :
    ∃ v, Valve.Advances 2 (Valve.opened sharedTube { visible := [.ofText Ty.bool "x"] } 0 "") v ∧
      v.finished.size = 2 ∧
      Enumerates ByLength (Ended sharedTube ⟨0, { visible := [.ofText Ty.bool "x"] }⟩ 2)
        v.finished.toList := by
  have run : ∃ v, Valve.Advances 2
      (Valve.opened sharedTube { visible := [.ofText Ty.bool "x"] } 0 "") v ∧ v.finished.size = 2 :=
    ⟨_, .next (.next .none rfl) rfl, rfl⟩
  obtain ⟨v, run, size⟩ := run
  exact ⟨v, run, size, (valve_enumerates_walks _ _ _ _ _ v run).2.1⟩

/-- The frontier does not always hold just the walks that go on: a seed without a node is in flight
before the first step. -/
theorem seed_without_node_in_flight :
    ¬ ∀ (g : Graph) (initial : Stack) (k : Nat) (v : Valve),
      Valve.Advances k (Valve.opened g initial 0 "") v →
      Enumerates Lexical (fun w f => w.length = k ∧ ∃ via, Walk g ⟨g.root, initial⟩ w via f ∧
        ¬ Fails via f ∧ f.node ≠ noNode) v.frontier := by
  intro claim
  have listed := claim { nodes := #[], root := noNode } {} 0 _ .none
  obtain ⟨w, length, via, walk, _, node⟩ :=
    (enumerates_mem listed ⟨noNode, {}⟩).mp (List.mem_singleton_self _)
  cases List.length_eq_zero_iff.mp length
  exact node (congrArg Flight.node (walk_nil walk).2)

end Runs

end StackFlow
