import Mathlib
import StackFlow.Proofs.Limits
import StackFlow.Proofs.Outlines

/-!
Analyses under different environments. What a run does depends on the outlines of its stacks only,
so that runs from stacks of one outline take the same steps, with the same errors and the same
events up to rendered texts. Main statement: the environment shows in the ID of a report and in the
texts of its items, and nowhere else.
-/

namespace StackFlow

open Micheline (Instruction Code)

/-! ## Nodes -/

def Flight.outline (f : Flight) : Flight := { f with stack := f.stack.outline }

theorem Flight.outline_eq_iff {f g : Flight} : f.outline = g.outline ↔
    f.node = g.node ∧ f.stack.outline = g.stack.outline := by
  simp [outline]

/-- What is the same through `f` has succeeded twice, or failed twice with one error. -/
theorem map_cases {ε α β : Type} {f : α → β} {r r' : Except ε α} (same : r.map f = r'.map f) :
    (∃ x y, r = .ok x ∧ r' = .ok y ∧ f x = f y) ∨ ∃ e, r = .error e ∧ r' = .error e := by
  cases r with
  | ok x =>
    cases r' with
    | ok y => exact .inl ⟨x, y, rfl, rfl, Except.ok.inj same⟩
    | error e => cases same
  | error e =>
    cases r' with
    | ok y => cases same
    | error e' =>
      cases same
      exact .inr ⟨e, rfl, rfl⟩

section Nodes

variable {s t : Stack} (shapes : s.outline = t.outline)

include shapes

theorem runCode_of_outline (code : Code) :
    (runCode code s).map Stack.outline = (runCode code t).map Stack.outline := by
  induction code generalizing s t with
  | nil => exact congrArg Except.ok shapes
  | cons i is ih =>
    unfold runCode
    rw [Stack.isFailed_of_outline shapes]
    split
    · exact congrArg Except.ok shapes
    · rcases ending_cases (step_lockstep i s t shapes) with
        ⟨x, y, s', t', left, right, _, shapes'⟩ | ⟨e, s', t', left, right⟩
      · rw [left, right]
        exact ih shapes'
      · rw [left, right]

/-- A node fails with one error, or puts out stacks of one outline along the same edges. -/
theorem flow_of_outline (n : Node) :
    (flow n s).map (List.map Flight.outline) = (flow n t).map (List.map Flight.outline) := by
  unfold flow
  split
  · unfold flowTube
    rcases map_cases (runCode_of_outline shapes n.code) with
      ⟨s', t', left, right, shapes'⟩ | ⟨⟨i, e⟩, left, right⟩
    · rw [left, right]
      simp only [Except.map, List.map_singleton, Flight.outline, Stack.outline_visit, shapes']
    · rw [left, right]
  · unfold flowJoint
    rcases ending_cases (split_lockstep n.joint s t shapes) with
      ⟨⟨a, b⟩, ⟨a', b'⟩, s', t', left, right, arms, _⟩ | ⟨e, s', t', left, right⟩
    · rw [left, right]
      obtain ⟨first, second⟩ := Prod.mk.inj arms
      dsimp only
      split
      · simp [Except.map, Flight.outline, first, second]
      · rfl
    · rw [left, right]
  · rfl

end Nodes

/-- What is read off outlines is the same for flights of one outline. -/
theorem map_of_outline {β : Type} {h : Flight → β} (each : ∀ f, h f.outline = h f)
    {fs gs : List Flight} (same : fs.map Flight.outline = gs.map Flight.outline) :
    fs.map h = gs.map h := by
  have along (fs : List Flight) : fs.map h = (fs.map Flight.outline).map h := by
    simp [each]
  rw [along, same, ← along]

/-! ## Steps -/

namespace Valve

def Passage.outline : Passage → Passage
  | .ended f => .ended f.outline
  | .through id n outs => .through id n (outs.map Flight.outline)

end Valve

/-- The record without the ID of the analysis. -/
def Log.Record.outline (r : Log.Record) : Log.Record :=
  { r with attrs := r.attrs.filter fun a => a.1 != "analysis_id" }

/-- The entry without rendered items and without the ID of the analysis. -/
def Entry.outline : Entry → Entry
  | .event (.finished e) => .event (.finished { e with top := "" })
  | .event (.failed e) => .event (.failed { e with top := "" })
  | .event e => .event e
  | .log r => .log r.outline

namespace Valve

/-- The valve with its stacks in outline, and without the ID of the analysis. -/
def outline (v : Valve) : Valve :=
  { v with
    frontier := v.frontier.map Flight.outline
    finished := v.finished.map Flight.outline
    failed := v.failed.map Flight.outline
    memo := v.memo.map Stack.outline
    analysisId := "" }

theorem outline_eq_iff {v u : Valve} : v.outline = u.outline ↔
    v.graph = u.graph ∧ v.frontier.map Flight.outline = u.frontier.map Flight.outline ∧
      v.finished.map Flight.outline = u.finished.map Flight.outline ∧
      v.failed.map Flight.outline = u.failed.map Flight.outline ∧
      v.memo.map Stack.outline = u.memo.map Stack.outline ∧ v.recorded = u.recorded ∧
      v.steps = u.steps ∧ v.maxStacks = u.maxStacks := by
  simp [outline]

def Abort.outline (a : Abort) : Abort :=
  { a with valve := a.valve.outline, entries := a.entries.map Entry.outline }

theorem Abort.outline_eq_iff {a b : Abort} : a.outline = b.outline ↔
    a.cause = b.cause ∧ a.valve.outline = b.valve.outline ∧
      a.entries.map Entry.outline = b.entries.map Entry.outline := by
  simp [outline]

section Passages

variable (p : Passage)

theorem next_outline : p.outline.next = p.next.map Flight.outline := by
  cases p <;> simp [Passage.outline, Passage.next, Flight.outline, List.filter_map,
    Function.comp_def]

theorem finished_outline : p.outline.finished = p.finished.map Flight.outline := by
  cases p <;> simp [Passage.outline, Passage.finished, Flight.outline, List.filter_map,
    Function.comp_def]

theorem failed_outline : p.outline.failed = p.failed.map Flight.outline := by
  cases p <;> simp [Passage.outline, Passage.failed, Flight.outline, List.filter_map,
    Function.comp_def]

theorem recorded_outline : p.outline.recorded =
    p.recorded.map fun entry => (entry.1, entry.2.outline) := by
  cases p <;> simp [Passage.outline, Passage.recorded, Flight.outline, Function.comp_def]

theorem maps_outline : p.Maps Stack.outline p.outline := by
  cases p with
  | ended f => exact .ended
  | through id n outs => exact .through (by simp [Flight.outline, Function.comp_def])

theorem overdrawn_outline {v u : Valve} (budget : v.maxStacks = u.maxStacks)
    (recorded : v.recorded = u.recorded) (count : Nat) :
    v.overdrawn count p = u.overdrawn count p.outline := by
  cases p <;> simp [Passage.outline, overdrawn, budget, recorded]

theorem events_outline : p.outline.events = p.events := by
  cases p <;> simp [Passage.outline, Passage.events]

end Passages

theorem tagged_outline (v : Valve) (r : Log.Record) : (v.tagged r).outline = r.outline := by
  unfold tagged
  split
  · rfl
  · simp [Log.Record.outline]

theorem log_outline (v : Valve) (r : Log.Record) :
    Entry.outline (.log (v.tagged r)) = .log r.outline :=
  congrArg Entry.log (tagged_outline v r)

/-- How a step or a part of it ends, in outline. -/
def seen {α β : Type} (f : α → β) (r : Except Abort α) : Except Abort β :=
  (r.map f).mapError Abort.outline

/-- What ends alike has succeeded twice, or was given up twice for one cause. -/
theorem seen_cases {α β : Type} {f : α → β} {r r' : Except Abort α} (same : seen f r = seen f r') :
    (∃ x y, r = .ok x ∧ r' = .ok y ∧ f x = f y) ∨
      ∃ a b, r = .error a ∧ r' = .error b ∧ a.outline = b.outline := by
  cases r <;> cases r' <;> simp_all [seen, Except.map, Except.mapError]

section Steps

variable {v u : Valve} (same : v.outline = u.outline)

include same

theorem passage_of_outline {f g : Flight} (flights : f.outline = g.outline) :
    seen Passage.outline (v.passage f) = seen Passage.outline (u.passage g) := by
  obtain ⟨node, shapes⟩ := Flight.outline_eq_iff.mp flights
  have graph := (outline_eq_iff.mp same).1
  unfold passage
  rw [node, graph]
  split
  · simp [seen, Except.map, Passage.outline, flights]
  · split
    · simp only [seen, Except.map, Except.mapError, Abort.outline, same, List.map_nil]
    · rename_i n found
      rcases map_cases (flow_of_outline shapes n) with
        ⟨outs, outs', left, right, outlines⟩ | ⟨e, left, right⟩
      · rw [left, right]
        simp only [seen, Except.map, Except.mapError, Passage.outline, outlines]
      · rw [left, right]
        simp only [seen, Except.map, Except.mapError, Abort.outline, List.map_singleton, same,
          log_outline]

theorem passages_of_outline (canceled : Nat → Bool) {fs gs : List Flight}
    (flights : fs.map Flight.outline = gs.map Flight.outline) {done done' : Array Passage}
    (before : done.map Passage.outline = done'.map Passage.outline) (count : Nat) :
    seen (Array.map Passage.outline) (v.passages canceled fs done count) =
      seen (Array.map Passage.outline) (u.passages canceled gs done' count) := by
  obtain ⟨_, _, _, _, _, recorded, _, budget⟩ := outline_eq_iff.mp same
  induction fs generalizing gs done done' count with
  | nil =>
    obtain rfl : gs = [] := by simpa using flights.symm
    simp [passages, seen, Except.map, before]
  | cons f fs ih =>
    obtain ⟨g, gs, rfl⟩ : ∃ g gs', gs = g :: gs' := by
      cases gs with
      | nil => simp at flights
      | cons g gs => exact ⟨g, gs, rfl⟩
    obtain ⟨first, others⟩ := List.cons.inj flights
    have size : done.size = done'.size := by simpa using congrArg Array.size before
    unfold passages
    rw [size, budget, recorded]
    split
    · simp only [seen, Except.map, Except.mapError, Abort.outline, same, List.map_nil]
    · rcases seen_cases (passage_of_outline same first) with
        ⟨p, q, left, right, outlines⟩ | ⟨a, b, left, right, outlines⟩
      · have length : p.recorded.length = q.recorded.length := by
          simpa [recorded_outline] using congrArg (·.recorded.length) outlines
        rw [left, right]
        dsimp only
        rw [length, overdrawn_outline p budget recorded, overdrawn_outline q rfl rfl, outlines]
        split
        · simp only [seen, Except.map, Except.mapError, Abort.outline, List.map_singleton, same,
            log_outline]
        · exact ih others (by simp [before, outlines]) _
      · rw [left, right]
        simp [seen, Except.map, Except.mapError, outlines]

end Steps

/-- What a step puts together from its passages is in outline put together from their outlines. -/
theorem flatMap_outline {α : Type} {f : Passage → List α} {h : α → α}
    (each : ∀ p, f p.outline = (f p).map h) {ps qs : List Passage}
    (same : ps.map Passage.outline = qs.map Passage.outline) :
    (ps.flatMap f).map h = (qs.flatMap f).map h := by
  have along (ps : List Passage) : (ps.flatMap f).map h = (ps.map Passage.outline).flatMap f := by
    simp [List.map_flatMap, List.flatMap_map, each]
  rw [along, same, along]

/-- The events of paths that end show the topmost item as a text and nothing else of the items. -/
theorem pathEvents_of_outline (h : PathEvent → Event)
    (shows : ∀ e, Entry.outline (.event (h e)) = .event (h { e with top := "" }))
    {fs gs : List Flight} (same : fs.map Flight.outline = gs.map Flight.outline) :
    (fs.map fun f => Entry.outline (.event (h (pathEvent f.stack)))) =
      gs.map fun f => Entry.outline (.event (h (pathEvent f.stack))) := by
  refine map_of_outline (h := fun f => Entry.outline (.event (h (pathEvent f.stack)))) ?_ same
  simp [shows, pathEvent, Flight.outline]

theorem commit_entries (v : Valve) (ps : List Passage) : (v.commit ps).2 =
    (ps.flatMap Passage.events).map Entry.event ++
      (ps.flatMap Passage.finished).map (fun f => .event (.finished (pathEvent f.stack))) ++
      (ps.flatMap Passage.failed).map (fun f => .event (.failed (pathEvent f.stack))) ++
      [.log (v.tagged ⟨Log.debug, "valve advanced",
        [("step", .int (v.commit ps).1.steps), ("frontier", .int (v.commit ps).1.frontier.length),
          ("recorded", .int (v.commit ps).1.recorded),
          ("failed", .int (ps.flatMap Passage.failed).length),
          ("finished", .int (ps.flatMap Passage.finished).length)]⟩)] := by
  simp only [commit, List.map_append, List.map_map]
  rfl

section Commits

variable {v u : Valve} (same : v.outline = u.outline) {ps qs : List Passage}
  (passages : ps.map Passage.outline = qs.map Passage.outline)

include same passages

theorem commit_of_outline : (v.commit ps).1.outline = (u.commit qs).1.outline := by
  have frontier := flatMap_outline next_outline passages
  have finished := flatMap_outline finished_outline passages
  have failed := flatMap_outline failed_outline passages
  have count := congrArg List.length (flatMap_outline recorded_outline passages)
  simp only [List.length_map] at count
  obtain ⟨graph, _, finished', failed', memo', recorded, steps, budget⟩ := outline_eq_iff.mp same
  refine outline_eq_iff.mpr ⟨graph, frontier, ?_, ?_, ?_, ?_, congrArg (· + 1) steps, budget⟩
  · simp only [commit, map_appendList, finished', finished]
  · simp only [commit, map_appendList, failed', failed]
  · simp only [commit, Draft.record_map maps_outline, memo', passages]
  · rw [commit_recorded, commit_recorded, recorded, count]

theorem entries_of_outline :
    (v.commit ps).2.map Entry.outline = (u.commit qs).2.map Entry.outline := by
  have after := commit_of_outline same passages
  obtain ⟨_, frontier, _, _, _, recorded, steps, _⟩ := outline_eq_iff.mp after
  have flights := by simpa only [List.length_map] using congrArg List.length frontier
  have finished := flatMap_outline finished_outline passages
  have failed := flatMap_outline failed_outline passages
  have ends := by simpa only [List.length_map] using congrArg List.length finished
  have failures := by simpa only [List.length_map] using congrArg List.length failed
  have events : ps.flatMap Passage.events = qs.flatMap Passage.events := by
    simpa using flatMap_outline (h := id) (f := Passage.events) (by simp [events_outline]) passages
  simp only [commit_entries, List.map_append, List.map_cons, List.map_nil, List.map_map,
    Function.comp_def, log_outline, events, pathEvents_of_outline .finished (fun _ => rfl) finished,
    pathEvents_of_outline .failed (fun _ => rfl) failed, steps, flights,
    recorded, ends, failures]

end Commits

theorem advance_of_outline {v u : Valve} (same : v.outline = u.outline) (canceled : Nat → Bool) :
    seen (fun next => (next.1.outline, next.2.map Entry.outline)) (v.advance canceled) =
      seen (fun next => (next.1.outline, next.2.map Entry.outline)) (u.advance canceled) := by
  obtain ⟨_, frontier, _⟩ := outline_eq_iff.mp same
  rw [advance_eq, advance_eq]
  rcases seen_cases (passages_of_outline same canceled frontier rfl 0) with
    ⟨ps, qs, left, right, outlines⟩ | ⟨a, b, left, right, outlines⟩
  · have passages : ps.toList.map Passage.outline = qs.toList.map Passage.outline := by
      simpa using congrArg Array.toList outlines
    rw [left, right]
    simp only [seen, Except.map, Except.mapError, commit_of_outline same passages,
      entries_of_outline same passages]
  · rw [left, right]
    simp only [seen, Except.map, Except.mapError, outlines]

end Valve

/-! ## Runs -/

/-- The signal does not depend on rendered items, nor on the ID of the analysis. One that reads them
could cancel one of two runs and not the other. -/
def Signal.IgnoresTexts (signal : Signal) : Prop :=
  ∀ t t' : Array Entry, t.map Entry.outline = t'.map Entry.outline → signal t = signal t'

theorem never_ignoresTexts : Signal.never.IgnoresTexts := fun _ _ _ => rfl

def Run.outline (r : Run) : Run :=
  { r with valve := r.valve.outline, trace := r.trace.map Entry.outline }

theorem Run.outline_eq_iff {r r' : Run} : r.outline = r'.outline ↔
    r.valve.outline = r'.valve.outline ∧
      r.trace.map Entry.outline = r'.trace.map Entry.outline ∧ r.error = r'.error := by
  simp [outline]

namespace Valve

section Runs

variable {signal : Signal} (ignores : signal.IgnoresTexts) (limit : Int) {v u : Valve}
  (same : v.outline = u.outline) {t t' : Array Entry}
  (before : t.map Entry.outline = t'.map Entry.outline)

include ignores same before

theorem run_of_outline (fuel : Nat) :
    (run signal limit fuel v t).map Run.outline = (run signal limit fuel u t').map Run.outline := by
  -- both runs make a step or neither, and behind it valves and traces have one outline again
  induction fuel generalizing v u t t' with
  | zero => rfl
  | succ fuel ih =>
    obtain ⟨_, frontier, finished, failed, _, _, steps, _⟩ := outline_eq_iff.mp same
    have flights := by simpa only [List.length_map] using congrArg List.length frontier
    have ends := by simpa only [Array.size_map] using congrArg Array.size finished
    have failures := by simpa only [Array.size_map] using congrArg Array.size failed
    have done : v.isDone = u.isDone := by
      simpa only [isDone, List.isEmpty_map] using congrArg List.isEmpty frontier
    rw [run_succ, run_succ, done, steps]
    split
    · simp only [Option.map_some, Run.outline, Array.map_push, log_outline, same, before, ends,
        failures]
    · split
      · simp only [Option.map_some, Run.outline, Array.map_push, log_outline, same, before, flights]
      · rw [ignores t t' before]
        rcases seen_cases (advance_of_outline same (signal t')) with
          ⟨⟨w, es⟩, ⟨w', es'⟩, left, right, outlines⟩ | ⟨a, b, left, right, outlines⟩
        · obtain ⟨next, entries⟩ := Prod.mk.inj outlines
          rw [left, right]
          exact ih next (by rw [map_appendList, before, entries, map_appendList])
        · rw [left, right]
          obtain ⟨cause, valve, entries⟩ := Abort.outline_eq_iff.mp outlines
          simp only [Option.map_some, Run.outline, map_appendList, before, cause, valve, entries]

theorem drain_of_outline :
    (drain signal limit v t).outline = (drain signal limit u t').outline := by
  have ran := run_of_outline ignores limit same before patience
  unfold drain
  generalize run signal limit patience v t = r at ran ⊢
  generalize run signal limit patience u t' = r' at ran ⊢
  cases r <;> cases r' <;> simp_all [Run.outline]

end Runs

end Valve

/-! ## Reports -/

/-- How a path ended, without the rendered items: how many there are is still told. -/
def PathResult.outline (p : PathResult) : PathResult :=
  { p with top := "", stack := p.stack.map fun _ => "" }

/-- The report without its ID and without rendered items. -/
def Report.outline (r : Report) : Report :=
  { r with
    id := ""
    terminals := r.terminals.map (List.map PathResult.outline)
    failures := r.failures.map (List.map PathResult.outline) }

theorem map_nonEmpty? {α β : Type} (f : α → β) (xs : List α) :
    (nonEmpty? xs).map (List.map f) = nonEmpty? (xs.map f) := by
  cases xs <;> rfl

theorem ofStack_outline (node : Int) (s : Stack) :
    (PathResult.ofStack node s.outline).outline = (PathResult.ofStack node s).outline := by
  simp [PathResult.ofStack, PathResult.outline, Stack.path, Stack.outline]

section Reports

variable {v u : Valve} (same : v.outline = u.outline)

include same

theorem visits_of_outline : v.visits = u.visits := by
  have along (v : Valve) : v.visits = v.outline.visits := by
    exact (Memo.sizes_map v.memo).symm
  rw [along, same, ← along]

theorem ofValve_of_outline (id id' contract now : String) (truncated : Bool) :
    (Report.ofValve id contract now truncated v).outline =
      (Report.ofValve id' contract now truncated u).outline := by
  obtain ⟨graph, _, finished, failed, _, _, steps, _⟩ := Valve.outline_eq_iff.mp same
  have terminals := map_of_outline
    (h := fun f => (PathResult.ofStack (f.stack.trail.headD noNode) f.stack).outline)
    (fun f => ofStack_outline _ f.stack) (by simpa using congrArg Array.toList finished)
  have failures := map_of_outline (h := fun f => (PathResult.ofStack f.node f.stack).outline)
    (fun f => ofStack_outline _ f.stack) (by simpa using congrArg Array.toList failed)
  simp only [Report.ofValve, Report.outline, map_nonEmpty?, List.map_map, Function.comp_def,
    terminals, failures, graph, steps, visits_of_outline same]

end Reports

/-! ## Engines -/

/-- Two analyses that took the same course: both failed with one error, or the reports differ in
their IDs and in rendered items at most. -/
def SameCourse : Except AnalysisError Report → Except AnalysisError Report → Prop
  | .ok r, .ok r' => r.outline = r'.outline
  | .error (.invalid _ e), .error (.invalid _ e') => e = e'
  | .error (.failed _ e), .error (.failed _ e') => e = e'
  | _, _ => False

namespace Engine

variable (e : Engine) (env : Env)

theorem compile_env (code : Code) : ({ e with env } : Engine).compile code =
    ((e.compile code).1, (e.compile code).2.1, { (e.compile code).2.2 with env }) := by
  unfold compile
  dsimp only
  split
  · rfl
  · split <;> rfl

variable {signal : Signal} (ignores : signal.IgnoresTexts) (now : String) (c : Contract)

include ignores

theorem analyzeGraph_env (g : Graph) (limit : Int) :
    SameCourse (e.analyzeGraph signal now c g limit).outcome
      (({ e with env } : Engine).analyzeGraph signal now c g limit).outcome := by
  have same : (e.valve g (c.initialStack e.env) (e.reportId c)).outline =
      (({ e with env } : Engine).valve g (c.initialStack env)
        (({ e with env } : Engine).reportId c)).outline := rfl
  have ran := Valve.drain_of_outline ignores limit same (t := #[]) rfl
  unfold analyzeGraph
  dsimp only
  generalize Valve.drain signal limit (e.valve g _ _) #[] = r at ran ⊢
  generalize Valve.drain signal limit (Engine.valve _ g _ _) #[] = r' at ran ⊢
  obtain ⟨stands, _, ended⟩ := Run.outline_eq_iff.mp ran
  rw [ended]
  split
  · exact rfl
  · split
    · exact ofValve_of_outline stands _ _ _ _ _
    · split
      · exact ofValve_of_outline stands _ _ _ _ _
      · exact rfl

/-- The environment does not steer an analysis, it only shows in the ID and in the texts of the
report. -/
theorem environment_unseen :
    SameCourse (e.analyze signal now c).1.outcome
        (({ e with env } : Engine).analyze signal now c).1.outcome ∧
      ∀ limit, SameCourse (e.analyzeLimit signal now c limit).1.outcome
        (({ e with env } : Engine).analyzeLimit signal now c limit).1.outcome := by
  have limited (limit : Int) : SameCourse (e.analyzeLimit signal now c limit).1.outcome
      (({ e with env } : Engine).analyzeLimit signal now c limit).1.outcome := by
    simp only [analyzeLimit, compile_env]
    exact analyzeGraph_env e env ignores now c _ limit
  exact ⟨limited e.maxSteps, limited⟩

omit ignores

/-! ## A sender that is named like a constructor -/

section Sender

/-- A contract that fails with its sender, if that is on the left. -/
def senderContract : Contract :=
  { parameter := .leaf "unit", storage := .leaf "unit"
    code := [.op "DROP" [] [], .op "SENDER" [] [], .op "IF_LEFT" []
      [.code [.op "FAILWITH" [] []], .code []]] }

def senderGraph : Graph :=
  { nodes := #[.tube 0 [] noNode, .tube 1 [.op "DROP" [] [], .op "SENDER" [] []] 2,
      .fork 2 "IF_LEFT" [3, 4], .tube 3 [.op "FAILWITH" [] []] 0, .tube 4 [] 0], root := 1 }

theorem build_sender : Graph.build senderContract.code = senderGraph := by
  cbv

theorem validate_sender : Engine.validate senderGraph = .ok () := by
  cbv

theorem sender_reported (env : Env) :
    ∃ r, (({ env } : Engine).analyze .never "now" senderContract).1.outcome = .ok r := by
  have ran : ∃ r, Valve.run .never 1000 5 (({ env } : Engine).valve senderGraph
      (senderContract.initialStack env) (({ env } : Engine).reportId senderContract)) #[] = some r ∧
        r.error = none ∧ r.valve.steps = 4 :=
    ⟨_, (Valve.run_ok rfl rfl (Valve.advance_eq.trans rfl)).trans
      ((Valve.run_ok rfl rfl (Valve.advance_eq.trans rfl)).trans
        ((Valve.run_ok rfl rfl (Valve.advance_eq.trans rfl)).trans
          ((Valve.run_ok rfl rfl (Valve.advance_eq.trans rfl)).trans (Valve.run_succ.trans rfl)))),
      rfl, rfl⟩
  obtain ⟨r, ran, drained, steps⟩ := ran
  simp only [analyze, analyzeLimit, compile, build_sender]
  exact ⟨_, run_analyzeGraph validate_sender ran drained (by rw [steps]; decide)⟩

theorem sender_unseen : Signal.never.IgnoresTexts ∧ ∃ r r',
    (({} : Engine).analyze .never "now" senderContract).1.outcome = .ok r ∧
      (({ env := { Env.default with sender := "Left" } } : Engine).analyze .never "now"
        senderContract).1.outcome = .ok r' ∧
      r.outline = r'.outline := by
  obtain ⟨r, left⟩ := sender_reported Env.default
  obtain ⟨r', right⟩ := sender_reported { Env.default with sender := "Left" }
  have same := (environment_unseen {} { Env.default with sender := "Left" } never_ignoresTexts
    "now" senderContract).1
  rw [left, right] at same
  exact ⟨never_ignoresTexts, r, r', left, right, same⟩

end Sender

end Engine

end StackFlow
