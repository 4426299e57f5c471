import StackFlow.Proofs.Memo
import StackFlow.Valve

/-!
A step of a valve, told as a function. Each flight of the frontier makes a passage, or cannot; the
passages add up to the draft of the step, and the commit of that draft is read off the passages. Main
statement: `step_eq`.
-/

namespace StackFlow.Valve

/-! ## Passages -/

/-- One flight of the frontier, flowed: a path that had already ended, or a node with what it put
out. -/
inductive Passage where
  | ended (f : Flight)
  | through (id : Int) (node : Node) (outputs : List Flight)

namespace Passage

def recorded : Passage → List (Int × Stack)
  | .ended _ => []
  | .through id _ outs => outs.map fun o => (id, o.stack)

/-- The flights that stay in the frontier. -/
def next : Passage → List Flight
  | .ended _ => []
  | .through _ _ outs => outs.filter fun o => !o.stack.isFailed && o.node != noNode

def finished : Passage → List Flight
  | .ended f => [f]
  | .through _ _ outs => outs.filter fun o => !o.stack.isFailed && o.node == noNode

/-- The failed stacks, at the node that failed them. -/
def failed : Passage → List Flight
  | .ended _ => []
  | .through id _ outs => (outs.filter (·.stack.isFailed)).map fun o => ⟨id, o.stack⟩

def events : Passage → List Event
  | .ended _ => []
  | .through _ n outs =>
    [.enter { id := n.id, kind := n.kind, joint := n.joint },
      .leave { id := n.id, kind := n.kind, joint := n.joint, outputs := outs.length }]

end Passage

/-- Flows one flight. -/
def passage (v : Valve) (f : Flight) : Except Abort Passage :=
  if f.node = noNode then .ok (.ended f)
  else
    match v.graph.node? f.node with
    | none => .error ⟨.missingNode f.node v.graph.size, v, []⟩
    | some n =>
      match flow n f.stack with
      | .ok outs => .ok (.through f.node n outs)
      | .error e => .error ⟨e, v, [.log (v.tagged ⟨Log.error, "flow failed",
          [("node", .int f.node), ("err", .text e.message)]⟩)]⟩

/-- Whether a passage exceeds the budget when that many stacks were put out, its own included. -/
def overdrawn (v : Valve) (count : Nat) : Passage → Bool
  | .ended _ => false
  | .through .. => 0 < v.maxStacks && v.maxStacks < v.recorded + count

/-- Flows the flights of the frontier in order. Before each of them the step looks whether it has
been canceled, given the position, and behind it whether the stacks put out so far still fit the
budget. -/
def passages (v : Valve) (canceled : Nat → Bool) :
    List Flight → (done : Array Passage) → (count : Nat) → Except Abort (Array Passage)
  | [], done, _ => .ok done
  | f :: fs, done, count =>
    if canceled done.size then .error ⟨.canceled, v, []⟩
    else
      match v.passage f with
      | .error a => .error a
      | .ok p =>
        let count := count + p.recorded.length
        if v.overdrawn count p then
          .error ⟨.stackBudget v.maxStacks, v, [.log (v.tagged ⟨Log.warn, "stack budget exhausted",
            [("recorded", .int v.recorded), ("pending", .int count),
              ("budget", .int v.maxStacks)]⟩)]⟩
        else passages v canceled fs (done.push p) count

/-! ## Drafts of passages -/

namespace Draft

/-- The draft with one more passage. -/
def pass (d : Draft) : Passage → Draft
  | .ended f => d.retire f
  | .through id n outs => d.through id n outs

def ofPassages (ps : List Passage) : Draft := ps.foldl pass {}

section Puts

variable {d : Draft} {id : Int} {o : Flight} {outs : List Flight}

/-- A stack goes to one of three places. -/
theorem put_cases (id : Int) (d : Draft) (o : Flight) :
    (o.stack.isFailed = true ∧ d.put id o =
      { d with produced := d.produced.add id #[o.stack], failed := d.failed.push ⟨id, o.stack⟩ }) ∨
    (o.stack.isFailed = false ∧ o.node = noNode ∧ d.put id o =
      { d with produced := d.produced.add id #[o.stack], finished := d.finished.push o }) ∨
    (o.stack.isFailed = false ∧ o.node ≠ noNode ∧ d.put id o =
      { d with produced := d.produced.add id #[o.stack], next := d.next.push o }) := by
  unfold put
  cases failed : o.stack.isFailed with
  | true => exact .inl ⟨rfl, rfl⟩
  | false =>
    by_cases ended : o.node = noNode
    · exact .inr (.inl ⟨rfl, ended, by simp [ended]⟩)
    · exact .inr (.inr ⟨rfl, ended, by simp [ended]⟩)

theorem puts_lists :
    (outs.foldl (put id) d).next.toList =
      d.next.toList ++ (outs.filter fun o => !o.stack.isFailed && o.node != noNode) ∧
    (outs.foldl (put id) d).finished.toList =
      d.finished.toList ++ (outs.filter fun o => !o.stack.isFailed && o.node == noNode) ∧
    (outs.foldl (put id) d).failed.toList =
      d.failed.toList ++ (outs.filter (·.stack.isFailed)).map fun o => ⟨id, o.stack⟩ := by
  induction outs generalizing d with
  | nil => simp
  | cons o os ih =>
    rw [List.foldl_cons, ih.1, ih.2.1, ih.2.2]
    rcases put_cases id d o with ⟨failed, same⟩ | ⟨going, ended, same⟩ | ⟨going, ended, same⟩ <;>
      simp [*]

theorem puts_rest : (outs.foldl (put id) d).events = d.events ∧
    (outs.foldl (put id) d).order = d.order ∧ (outs.foldl (put id) d).count = d.count := by
  induction outs generalizing d with
  | nil => exact ⟨rfl, rfl, rfl⟩
  | cons o os ih =>
    rw [List.foldl_cons]
    rcases put_cases id d o with ⟨_, same⟩ | ⟨_, _, same⟩ | ⟨_, _, same⟩ <;>
      simpa [same] using @ih (d.put id o)

/-- What a node puts out is put behind what it has put out before, as a whole. -/
theorem puts_produced : (outs.foldl (put id) d).produced =
    if outs = [] then d.produced else d.produced.add id (outs.map Flight.stack).toArray := by
  induction outs generalizing d with
  | nil => rfl
  | cons o os ih =>
    have first : (d.put id o).produced = d.produced.add id #[o.stack] := by
      rcases put_cases id d o with ⟨_, same⟩ | ⟨_, _, same⟩ | ⟨_, _, same⟩ <;> rw [same]
    rw [List.foldl_cons, ih, first]
    cases os with
    | nil => simp
    | cons o' os => simp [Memo.add_add]

end Puts

section Passes

variable {d : Draft} {p : Passage} {ps : List Passage}

theorem pass_next : (d.pass p).next.toList = d.next.toList ++ p.next := by
  cases p with
  | ended f => simp [pass, retire, Passage.next]
  | through id n outs => exact puts_lists.1

theorem pass_finished : (d.pass p).finished.toList = d.finished.toList ++ p.finished := by
  cases p with
  | ended f => simp [pass, retire, Passage.finished]
  | through id n outs => exact puts_lists.2.1

theorem pass_failed : (d.pass p).failed.toList = d.failed.toList ++ p.failed := by
  cases p with
  | ended f => simp [pass, retire, Passage.failed]
  | through id n outs => exact puts_lists.2.2

theorem pass_events : (d.pass p).events.toList = d.events.toList ++ p.events := by
  cases p with
  | ended f => simp [pass, retire, Passage.events]
  | through id n outs => simp [pass, through, puts_rest.1, Passage.events]

theorem pass_count : (d.pass p).count = d.count + p.recorded.length := by
  cases p with
  | ended f => rfl
  | through id n outs => simp [pass, through, puts_rest.2.2, Passage.recorded]

/-- What is added by each passage alike is added up by all of them. -/
theorem passes_list {α : Type} {read : Draft → List α} {part : Passage → List α}
    (each : ∀ d p, read (pass d p) = read d ++ part p) :
    read (ps.foldl pass d) = read d ++ ps.flatMap part := by
  induction ps generalizing d with
  | nil => simp
  | cons p ps ih => rw [List.foldl_cons, ih, each, List.flatMap_cons, List.append_assoc]

theorem passes_count : (ps.foldl pass d).count = d.count + (ps.flatMap Passage.recorded).length := by
  induction ps generalizing d with
  | nil => rfl
  | cons p ps ih =>
    rw [List.foldl_cons, ih, pass_count, List.flatMap_cons, List.length_append, Nat.add_assoc]

end Passes

variable (ps : List Passage)

theorem ofPassages_next : (ofPassages ps).next.toList = ps.flatMap Passage.next :=
  @passes_list {} ps _ (fun d => d.next.toList) _ fun _ _ => pass_next

theorem ofPassages_finished : (ofPassages ps).finished.toList = ps.flatMap Passage.finished :=
  @passes_list {} ps _ (fun d => d.finished.toList) _ fun _ _ => pass_finished

theorem ofPassages_failed : (ofPassages ps).failed.toList = ps.flatMap Passage.failed :=
  @passes_list {} ps _ (fun d => d.failed.toList) _ fun _ _ => pass_failed

theorem ofPassages_events : (ofPassages ps).events.toList = ps.flatMap Passage.events :=
  @passes_list {} ps _ (fun d => d.events.toList) _ fun _ _ => pass_events

theorem ofPassages_count : (ofPassages ps).count = (ps.flatMap Passage.recorded).length := by
  rw [ofPassages, passes_count, Nat.zero_add]

/-! ## What is recorded -/

/-- The draft keeps apart what each node has put out of these stacks, and knows the nodes. -/
structure Tracks (d : Draft) (rs : List (Int × Stack)) : Prop where
  nodup : d.order.toList.Nodup
  known : ∀ id, id ∈ d.order ↔ (d.produced.find? id).isSome
  held : ∀ id, (d.produced.stacksAt id).toList = stacksOf id rs

section Tracks

variable {d : Draft} {id : Int} {n : Node} {outs : List Flight} {rs : List (Int × Stack)}

theorem through_order : (d.through id n outs).order =
    if (d.produced.find? id).isSome then d.order else d.order.push id := puts_rest.2.1

theorem through_produced : (d.through id n outs).produced =
    if outs = [] then d.produced else d.produced.add id (outs.map Flight.stack).toArray :=
  puts_produced

/-- A node that puts out nothing would be noted as often as it is passed. -/
theorem tracks_through (tracks : d.Tracks rs) (productive : outs ≠ []) :
    (d.through id n outs).Tracks (rs ++ outs.map fun o => (id, o.stack)) := by
  have produced : (d.through id n outs).produced =
      d.produced.add id (outs.map Flight.stack).toArray := by
    rw [through_produced, if_neg productive]
  constructor
  · rw [through_order]
    split
    · exact tracks.nodup
    · rename_i unknown
      rw [Array.toList_push, List.nodup_append]
      refine ⟨tracks.nodup, by simp, ?_⟩
      intro k before k' new same
      obtain rfl : k = id := same.trans (List.mem_singleton.mp new)
      exact unknown ((tracks.known k).mp (Array.mem_toList_iff.mp before))
  · intro k
    rw [through_order, produced, Memo.find?_add]
    by_cases here : k = id
    · subst here
      split
      · rename_i known
        simp [(tracks.known k).mpr known]
      · simp
    · rw [if_neg here, ← tracks.known k]
      split <;> simp [here]
  · intro k
    have new := @stacksOf_node k id (outs.map Flight.stack)
    rw [List.map_map] at new
    change stacksOf k (outs.map fun o => (id, o.stack)) = _ at new
    rw [produced, Memo.stacksAt_add, stacksOf_append, ← tracks.held k, new]
    by_cases here : k = id
    · simp [here]
    · simp [here]

/-- Nodes in turn, each once, get what a function says. -/
theorem stacksAt_adds {order : List Int} (once : order.Nodup) (f : Int → Array Stack) (m : Memo) :
    (order.foldl (fun m id => m.add id (f id)) m).stacksAt id =
      m.stacksAt id ++ if id ∈ order then f id else #[] := by
  induction order generalizing m with
  | nil => simp
  | cons k rest ih =>
    obtain ⟨fresh, later⟩ := List.nodup_cons.mp once
    rw [List.foldl_cons, ih later, Memo.stacksAt_add]
    by_cases here : id = k
    · subst here
      simp [fresh]
    · simp [here]

/-- Node by node, the memo gets just the stacks that were put out. -/
theorem stacksAt_record (tracks : d.Tracks rs) (m : Memo) :
    ((d.record m).stacksAt id).toList = (m.stacksAt id).toList ++ stacksOf id rs := by
  have added : (d.record m).stacksAt id =
      m.stacksAt id ++ if id ∈ d.order.toList then d.produced.stacksAt id else #[] := by
    rw [record, ← Array.foldl_toList]
    exact stacksAt_adds tracks.nodup _ m
  rw [added, Array.toList_append, ← tracks.held id]
  congr 1
  by_cases known : id ∈ d.order
  · rw [if_pos (Array.mem_toList_iff.mpr known)]
  · have absent : d.produced.find? id = none := by
      simpa using mt (tracks.known id).mpr known
    rw [if_neg (mt Array.mem_toList_iff.mp known), Memo.stacksAt, absent]
    rfl

end Tracks

end Draft

/-- A node that was passed has put something out. -/
def Passage.Productive : Passage → Prop
  | .ended _ => True
  | .through _ _ outs => outs ≠ []

namespace Draft

theorem tracks_passes {d : Draft} {rs : List (Int × Stack)} {ps : List Passage}
    (tracks : d.Tracks rs) (productive : ∀ p ∈ ps, p.Productive) :
    (ps.foldl pass d).Tracks (rs ++ ps.flatMap Passage.recorded) := by
  induction ps generalizing d rs with
  | nil => simpa using tracks
  | cons p ps ih =>
    have first : (d.pass p).Tracks (rs ++ p.recorded) := by
      cases p with
      | ended f => simpa [pass, retire, Passage.recorded] using ⟨tracks.1, tracks.2, tracks.3⟩
      | through id n outs => exact tracks_through tracks (productive _ List.mem_cons_self)
    rw [List.foldl_cons, List.flatMap_cons, ← List.append_assoc]
    exact ih first fun q member => productive q (List.mem_cons_of_mem p member)

theorem tracks_ofPassages {ps : List Passage} (productive : ∀ p ∈ ps, p.Productive) :
    (ofPassages ps).Tracks (ps.flatMap Passage.recorded) := by
  have blank : ({} : Draft).Tracks [] := ⟨.nil, fun id => by simp [Memo.find?, Memo.empty], fun id => rfl⟩
  simpa [ofPassages] using tracks_passes blank productive

end Draft

/-! ## Other stacks in their place -/

/-- The second passage puts out other stacks in place of those of the first. -/
inductive Passage.Maps (f : Stack → Stack) : Passage → Passage → Prop where
  | ended {o o' : Flight} : Maps f (.ended o) (.ended o')
  | through {id : Int} {n n' : Node} {outs outs' : List Flight} :
      outs'.map Flight.stack = (outs.map Flight.stack).map f →
      Maps f (.through id n outs) (.through id n' outs')

namespace Draft

/-- The second draft holds other stacks in place of those of the first. -/
structure Maps (f : Stack → Stack) (d d' : Draft) : Prop where
  order : d'.order = d.order
  produced : d'.produced = d.produced.map f

section Maps

variable {f : Stack → Stack} {d d' : Draft} {p q : Passage} {ps : List Passage}

theorem maps_pass (drafts : d.Maps f d') (passages : p.Maps f q) :
    (d.pass p).Maps f (d'.pass q) := by
  cases passages with
  | ended => exact ⟨drafts.order, drafts.produced⟩
  | @through id n n' outs outs' same =>
    constructor
    · simp only [pass, through_order, drafts.order, drafts.produced, Memo.find?_map,
        Option.isSome_map]
    · simp only [pass, through_produced]
      cases outs with
      | nil =>
        obtain rfl : outs' = [] := by simpa using same
        exact drafts.produced
      | cons o os =>
        have some : outs' ≠ [] := by
          rintro rfl
          cases same
        rw [if_neg some, if_neg (List.cons_ne_nil o os), Memo.map_add, drafts.produced, same,
          List.map_toArray]

theorem maps_passes (drafts : d.Maps f d') {h : Passage → Passage}
    (each : ∀ p : Passage, p.Maps f (h p)) :
    (ps.foldl pass d).Maps f ((ps.map h).foldl pass d') := by
  induction ps generalizing d d' with
  | nil => exact drafts
  | cons p ps ih => exact ih (maps_pass drafts (each p))

theorem maps_record (drafts : d.Maps f d') (m : Memo) :
    (d.record m).map f = d'.record (m.map f) := by
  simp only [record, ← Array.foldl_toList, drafts.order, drafts.produced]
  induction d.order.toList generalizing m with
  | nil => rfl
  | cons id order ih =>
    rw [List.foldl_cons, List.foldl_cons, ih, Memo.map_add, Memo.stacksAt_map]

/-- What is recorded of other passages is what was recorded with other stacks in its place. -/
theorem record_map {h : Passage → Passage} (each : ∀ p : Passage, p.Maps f (h p)) (m : Memo) :
    ((ofPassages ps).record m).map f = (ofPassages (ps.map h)).record (m.map f) :=
  maps_record (maps_passes ⟨rfl, rfl⟩ each) m

end Maps

end Draft

/-! ## Steps -/

/-- The state behind a step, and what the step reports. -/
def commit (v : Valve) (ps : List Passage) : Valve × List Entry :=
  let finished := ps.flatMap Passage.finished
  let failed := ps.flatMap Passage.failed
  let v' : Valve :=
    { v with
      frontier := ps.flatMap Passage.next
      finished := v.finished ++ finished
      failed := v.failed ++ failed
      memo := (Draft.ofPassages ps).record v.memo
      recorded := v.recorded + (ps.flatMap Passage.recorded).length
      steps := v.steps + 1 }
  let events := ps.flatMap Passage.events ++ finished.map (fun f => .finished (pathEvent f.stack))
    ++ failed.map fun f => .failed (pathEvent f.stack)
  (v', events.map .event ++ [.log (v.tagged ⟨Log.debug, "valve advanced",
    [("step", .int v'.steps), ("frontier", .int v'.frontier.length), ("recorded", .int v'.recorded),
      ("failed", .int failed.length), ("finished", .int finished.length)]⟩)])

namespace Step

variable {v : Valve} {t : Array Entry} {signal : Signal}

theorem run_bind_ok {α β : Type} {x : Step α} {k : α → Step β} {w : Work} {a : α}
    (w' : Work) (ran : x.run w = .ok a w') : (x >>= k).run w = (k a).run w' := by
  simp only [EStateM.run] at ran ⊢
  simp only [bind, EStateM.bind, ran]

theorem run_bind_error {α β : Type} {x : Step α} {k : α → Step β} {w w' : Work} {e : RunError}
    (ran : x.run w = .error e w') : (x >>= k).run w = .error e w' := by
  simp only [EStateM.run] at ran ⊢
  simp only [bind, EStateM.bind, ran]

theorem run_log (level : Int) (message : String) (attrs : List (String × Log.Attr)) :
    (log level message attrs).run ⟨v, t⟩ =
      .ok () ⟨v, t.push (.log (v.tagged ⟨level, message, attrs⟩))⟩ := rfl

theorem run_reports {α : Type} (xs : List α) (entry : α → Entry) :
    (xs.forM fun x => report (entry x)).run ⟨v, t⟩ = .ok () ⟨v, t ++ xs.map entry⟩ := by
  induction xs generalizing t with
  | nil => simp [List.forM, pure, EStateM.pure, EStateM.run]
  | cons x xs ih =>
    refine (run_bind_ok ⟨v, t.push (entry x)⟩ rfl).trans ?_
    rw [ih]
    simp

theorem run_cross (f : Flight) (d : Draft) : (cross f d).run ⟨v, t⟩ =
    match v.passage f with
    | .error a => .error a.cause ⟨a.valve, t ++ a.entries⟩
    | .ok p =>
      if v.overdrawn (d.count + p.recorded.length) p then
        .error (.stackBudget v.maxStacks) ⟨v, t.push (.log (v.tagged ⟨Log.warn,
          "stack budget exhausted", [("recorded", .int v.recorded),
            ("pending", .int (d.count + p.recorded.length : Nat)), ("budget", .int v.maxStacks)]⟩))⟩
      else .ok (d.pass p) ⟨v, t⟩ := by
  unfold cross passage
  refine (run_bind_ok ⟨v, t⟩ rfl).trans ?_
  by_cases ended : f.node = noNode
  · rw [if_pos ended, if_pos ended]
    rfl
  · rw [if_neg ended, if_neg ended]
    cases v.graph.node? f.node with
    | none => rfl
    | some n =>
      dsimp only
      cases flow n f.stack with
      | error e => exact run_bind_ok _ (run_log _ _ _)
      | ok outs =>
        simp only [overdrawn, Passage.recorded, List.length_map]
        split
        · exact run_bind_ok _ (run_log _ _ _)
        · rfl

/-- Behind some passages, the rest of the frontier is gathered as it makes its passages. -/
theorem run_gather (fs : List Flight) (done : Array Passage) :
    (gather signal fs done.size (Draft.ofPassages done.toList)).run ⟨v, t⟩ =
      match v.passages (signal t) fs done (done.toList.flatMap Passage.recorded).length with
      | .error a => .error a.cause ⟨a.valve, t ++ a.entries⟩
      | .ok ps => .ok (Draft.ofPassages ps.toList) ⟨v, t⟩ := by
  induction fs generalizing done with
  | nil => rfl
  | cons f fs ih =>
    unfold gather passages
    refine (run_bind_ok ⟨v, t⟩ rfl).trans ?_
    dsimp only
    by_cases stopped : signal t done.size
    · rw [if_pos stopped, if_pos stopped]
      rfl
    · rw [if_neg stopped, if_neg stopped]
      have crossed := run_cross (v := v) (t := t) f (Draft.ofPassages done.toList)
      cases passed : v.passage f with
      | error a =>
        rw [passed] at crossed
        exact run_bind_error crossed
      | ok p =>
        have counted : (Draft.ofPassages done.toList).count + p.recorded.length =
            (done.toList.flatMap Passage.recorded).length + p.recorded.length := by
          rw [Draft.ofPassages_count]
        simp only [passed, counted] at crossed
        dsimp only
        by_cases exceeds : v.overdrawn
            ((done.toList.flatMap Passage.recorded).length + p.recorded.length) p
        · rw [if_pos exceeds] at crossed ⊢
          exact run_bind_error crossed
        · rw [if_neg exceeds] at crossed ⊢
          refine (run_bind_ok _ crossed).trans ?_
          have rest := ih (done.push p)
          simpa [Draft.ofPassages] using rest

/-- A commit goes through, whatever it reports. -/
theorem run_commit (ps : List Passage) : (commit (Draft.ofPassages ps)).run ⟨v, t⟩ =
    .ok () ⟨(v.commit ps).1, t ++ (v.commit ps).2⟩ := by
  have next := Draft.ofPassages_next ps
  have finished := Draft.ofPassages_finished ps
  have failed := Draft.ofPassages_failed ps
  have events := Draft.ofPassages_events ps
  have count := Draft.ofPassages_count ps
  unfold commit
  generalize drawn : Draft.ofPassages ps = d at next finished failed events count
  refine (run_bind_ok (⟨{ v with
    memo := d.record v.memo, recorded := v.recorded + d.count }, t⟩) rfl).trans ?_
  refine (run_bind_ok _ (run_reports _ _)).trans ?_
  refine (run_bind_ok _ (run_reports _ _)).trans ?_
  refine (run_bind_ok _ (run_reports _ _)).trans ?_
  refine (run_bind_ok (⟨{ v with
    memo := d.record v.memo, recorded := v.recorded + d.count
    finished := v.finished ++ d.finished, failed := v.failed ++ d.failed
    frontier := d.next.toList, steps := v.steps + 1 }, _⟩) rfl).trans ?_
  refine (run_bind_ok _ rfl).trans ((run_log _ _ _).trans ?_)
  unfold Valve.commit
  simp only [drawn, ← next, ← finished, ← failed, ← events, ← count]
  have appended (xs ys : Array Flight) : xs ++ ys = xs ++ ys.toList := Array.toList_inj.mp (by simp)
  rw [appended, appended]
  refine congrArg (EStateM.Result.ok ()) (congrArg (Work.mk _) (Array.toList_inj.mp ?_))
  simp [tagged, Function.comp_def]

/-- One step, told by the passages of the frontier. -/
theorem run_step (signal : Signal) (v : Valve) (t : Array Entry) :
    (step signal).run ⟨v, t⟩ =
      match v.passages (signal t) v.frontier #[] 0 with
      | .error a => .error a.cause ⟨a.valve, t ++ a.entries⟩
      | .ok ps => .ok () ⟨(v.commit ps.toList).1, t ++ (v.commit ps.toList).2⟩ := by
  unfold step
  refine (run_bind_ok ⟨v, t⟩ rfl).trans ?_
  have gathered := @run_gather v t signal v.frontier #[]
  cases passed : v.passages (signal t) v.frontier #[] 0 with
  | error a =>
    simp only [List.flatMap_nil, List.length_nil, passed] at gathered
    exact run_bind_error gathered
  | ok ps =>
    simp only [List.flatMap_nil, List.length_nil, passed] at gathered
    exact (run_bind_ok _ gathered).trans (run_commit ps.toList)

end Step

variable {v : Valve} {canceled : Nat → Bool}

theorem advance_eq : v.advance canceled =
    match v.passages canceled v.frontier #[] 0 with
    | .ok ps => .ok (v.commit ps.toList)
    | .error a => .error a := by
  unfold advance
  rw [Step.run_step]
  cases v.passages canceled v.frontier #[] 0 with
  | error a => simp
  | ok ps => simp

/-- A step on a trace is the step by itself, with what it reports put behind the trace. -/
theorem step_eq (signal : Signal) (v : Valve) (t : Array Entry) :
    (step signal).run ⟨v, t⟩ =
      match v.advance (signal t) with
      | .error a => .error a.cause ⟨a.valve, t ++ a.entries⟩
      | .ok (v', entries) => .ok () ⟨v', t ++ entries⟩ := by
  rw [Step.run_step, advance_eq]
  cases v.passages (signal t) v.frontier #[] 0 <;> rfl

theorem run_succ {signal : Signal} {maxSteps : Int} {fuel : Nat} {t : Array Entry} :
    run signal maxSteps (fuel + 1) v t =
      if v.isDone then
        some ⟨v, t.push (.log (v.tagged ⟨Log.info, "valve drained", [("steps", .int v.steps),
          ("terminals", .int v.finished.size), ("failures", .int v.failed.size)]⟩)), none⟩
      else if 0 < maxSteps && maxSteps ≤ v.steps then
        some ⟨v, t.push (.log (v.tagged ⟨Log.warn, "step limit reached",
          [("steps", .int v.steps), ("frontier", .int v.frontier.length)]⟩)), some .stepLimit⟩
      else
        match v.advance (signal t) with
        | .error a => some ⟨a.valve, t ++ a.entries, some a.cause⟩
        | .ok (v', entries) => run signal maxSteps fuel v' (t ++ entries) := by
  rw [run, step_eq]
  cases v.advance (signal t) <;> rfl

section Run

variable {signal : Signal} {maxSteps : Int} {fuel : Nat} {t : Array Entry}

theorem run_ok {v' : Valve} {entries : List Entry} (going : v.isDone = false)
    (within : (0 < maxSteps && maxSteps ≤ v.steps : Bool) = false)
    (accepted : v.advance (signal t) = .ok (v', entries)) :
    run signal maxSteps (fuel + 1) v t = run signal maxSteps fuel v' (t ++ entries) := by
  rw [run_succ, going, within, accepted]
  rfl

theorem run_error {a : Abort} (going : v.isDone = false)
    (within : (0 < maxSteps && maxSteps ≤ v.steps : Bool) = false)
    (refused : v.advance (signal t) = .error a) :
    run signal maxSteps (fuel + 1) v t = some ⟨a.valve, t ++ a.entries, some a.cause⟩ := by
  rw [run_succ, going, within, refused]
  rfl

end Run

end StackFlow.Valve
