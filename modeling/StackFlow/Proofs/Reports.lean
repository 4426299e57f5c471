import Mathlib.Data.List.Nodup
import StackFlow.Proofs.Moments
import StackFlow.Proofs.Reading
import StackFlow.Report.Decode

/-!
A report is read back from its text. Its fields have names that differ, so that each is read from
the one value that was written for it, or keeps the value that a blank report has where nothing was
written. Main statement: `Report.parse?_render`.
-/

namespace StackFlow

namespace Json.Decoder

section Records

variable {α : Type}

/-- The values that were given for a field. -/
def given (name : String) (fs : Fields) : List Value :=
  fs.filterMap fun f => if f.1 == name then some f.2 else none

theorem given_append (name : String) (fs fs' : Fields) :
    given name (fs ++ fs') = given name fs ++ given name fs' := List.filterMap_append

theorem given_cons (name key : String) (v : Value) (fs : Fields) :
    given name ((key, v) :: fs) = if key = name then v :: given name fs else given name fs := by
  by_cases same : key = name <;> simp [given, same]

theorem given_nil (name : String) : given name [] = [] := rfl

theorem given_ite (name : String) (c : Prop) [Decidable c] (fs fs' : Fields) :
    given name (if c then fs else fs') = if c then given name fs else given name fs' :=
  apply_ite (given name) c fs fs'

theorem given_unlessBlank (name key s : String) :
    given name (Value.unlessBlank key s) = if key = name ∧ s ≠ "" then [.str s] else [] := by
  by_cases blank : s = ""
  · simp [Value.unlessBlank, blank, given]
  · simp [Value.unlessBlank, blank, given_cons, given_nil]

theorem given_unlessEmpty (name key : String) (items : List Value) :
    given name (Value.unlessEmpty key items) =
      if key = name ∧ items ≠ [] then [.arr items] else [] := by
  by_cases empty : items = []
  · simp [Value.unlessEmpty, empty, given]
  · simp [Value.unlessEmpty, empty, given_cons, given_nil]

theorem forall_unlessBlank {p : String × Value → Prop} {key s : String} :
    (∀ f ∈ Value.unlessBlank key s, p f) ↔ (s ≠ "" → p (key, .str s)) := by
  by_cases blank : s = "" <;> simp [Value.unlessBlank, blank]

theorem forall_unlessEmpty {p : String × Value → Prop} {key : String} {items : List Value} :
    (∀ f ∈ Value.unlessEmpty key items, p f) ↔ (items ≠ [] → p (key, .arr items)) := by
  by_cases empty : items = [] <;> simp [Value.unlessEmpty, empty]

theorem nameOf?_known {known : List (Field α)} {key : String} (listed : key ∈ known.map (·.1)) :
    nameOf? known key = some key := by
  obtain ⟨f, member, named⟩ := List.mem_map.mp listed
  cases found : known.find? (·.1 == key) with
  | none => exact absurd (List.find?_eq_none.mp found f member) (by simp [named])
  | some g =>
    have same := List.find?_some found
    simp only [beq_iff_eq] at same
    simp [nameOf?, found, same]

/-- Where every key is the name of a field, each field is read from what stands under its name. -/
theorem fields_exact {known : List (Field α)} {fs : Fields} (a : α)
    (exact : ∀ f ∈ fs, f.1 ∈ known.map (·.1)) :
    fields known a fs = known.foldlM (fun a f => f.2 a (given f.1 fs)) a := by
  have named : (fs.filterMap fun f => (nameOf? known f.1).map fun name => (name, f.2)) = fs := by
    conv_rhs => rw [← List.filterMap_some (l := fs)]
    refine List.filterMap_congr fun f member => ?_
    rw [nameOf?_known (exact f member)]
    rfl
  simp only [fields, named]
  rfl

theorem record_written {known : List (Field α)} {fs : Fields} (a : α)
    (exact : ∀ f ∈ fs, f.1 ∈ known.map (·.1)) :
    record known a [.obj fs] = known.foldlM (fun a f => f.2 a (given f.1 fs)) a := by
  rw [record, allFields?, allFields?, Option.map_some, List.append_nil, Option.bind_some,
    fields_exact a exact]

end Records

section Lists

variable {α : Type} {blank : α} {element : Decoder α} {write : α → Value} {xs : List α}

theorem mapM_some {β γ : Type} {f : β → Option γ} {g : β → γ} {ys : List β}
    (each : ∀ y ∈ ys, f y = some (g y)) : ys.mapM f = some (ys.map g) := by
  induction ys with
  | nil => rfl
  | cons y ys ih =>
    have rest := ih fun z member => each z (List.mem_cons_of_mem y member)
    simp [List.mapM_cons, each y List.mem_cons_self, rest]

theorem elements_written (read : ∀ x ∈ xs, element blank [write x] = some x) :
    elements blank element [xs.map write] = some xs := by
  have each : ∀ i ∈ List.range xs.length,
      element blank ([xs.map write].filterMap fun items => items[i]?) = some (xs[i]?.getD blank) := by
    intro i member
    have inside := List.mem_range.mp member
    simp [inside, read]
  have whole : (List.range xs.length).map (fun i => xs[i]?.getD blank) = xs := by
    refine List.ext_getElem (by simp) fun i _ inside => ?_
    simp [inside]
  have all := mapM_some each
  rw [whole] at all
  simp only [elements, List.map_cons, List.map_nil, List.foldl_cons, List.foldl_nil, List.length_map,
    Nat.zero_max, all, Option.bind_eq_bind, Option.bind_some, List.getLast?_singleton,
    Option.getD_some, List.take_length, Option.pure_def]

theorem list_written (old : Option (List α))
    (read : ∀ x ∈ xs, element blank [write x] = some x) :
    list blank element old [.arr (xs.map write)] = some (some xs) := by
  cases xs with
  | nil => rfl
  | cons x xs =>
    have items := elements_written read
    simp only [List.map_cons] at items
    simp [list, listOnto, items]

theorem list_null (old : Option (List α)) : list blank element old [.null] = some none := rfl

end Lists

theorem text_written (old s : String) : text old [.str s] = some s := rfl

theorem text_unlessBlank (s : String) :
    text "" (if s = "" then [] else [.str s]) = some s := by
  by_cases blank : s = "" <;> simp [text, inTurn, blank]

theorem word_written {n : Int} (old : Int) (fits : fitsWord n = true) :
    word old [.num (Decimal.text n)] = some n := by
  have bounds := fitsWord_iff.mp fits
  simp [word, inTurn, Decimal.readWord?_text bounds.1 bounds.2]

end Json.Decoder

open Json (Value Decoder isNumber_text readableItems_iff readableFields_iff)
open Json.Decoder

/-! ## Paths -/

namespace PathResult

/-- A result whose numbers are words. -/
structure Proper (r : PathResult) : Prop where
  node : fitsWord r.node = true
  path : ∀ ids ∈ r.path, ∀ n ∈ ids, fitsWord n = true

def idsJson : Option (List Int) → Value
  | none => .null
  | some ids => .arr (ids.map fun n => .num (Decimal.text n))

theorem toJson_eq (r : PathResult) :
    r.toJson = .obj ([("path", idsJson r.path), ("node", .num (Decimal.text r.node))]
      ++ Value.unlessBlank "top" r.top ++ Value.unlessEmpty "stack" (r.stack.map .str)) := by
  cases path : r.path <;> simp only [toJson, idsJson, path]

theorem ids_written {ids : Option (List Int)} (words : ∀ ns ∈ ids, ∀ n ∈ ns, fitsWord n = true) :
    Decoder.list 0 Decoder.word none [idsJson ids] = some ids := by
  cases ids with
  | none => exact list_null none
  | some ns => exact list_written none fun n member => word_written 0 (words ns rfl n member)

theorem lines_written (lines : List String) :
    Decoder.list "" Decoder.text (some []) (if lines = [] then [] else [.arr (lines.map .str)]) =
      some (some lines) := by
  cases lines with
  | nil => rfl
  | cons line lines => exact list_written (some []) fun _ _ => rfl

theorem read_toJson {r : PathResult} (proper : r.Proper) :
    Decoder.record fields {} [r.toJson] = some r := by
  rw [toJson_eq, record_written]
  case exact =>
    simp only [List.forall_mem_append, List.forall_mem_cons, forall_unlessBlank, forall_unlessEmpty]
    simp [fields, field]
  simp only [fields, field, List.foldlM_cons, List.foldlM_nil, given_append, given_cons, given_nil,
    given_unlessBlank, given_unlessEmpty]
  simp [ids_written proper.path, word_written 0 proper.node, text_unlessBlank, lines_written]

theorem readable_toJson (r : PathResult) : r.toJson.Readable 2 := by
  have ids : (idsJson r.path).Readable 1 := by
    cases r.path with
    | none => trivial
    | some ns =>
      refine readableItems_iff.mpr ?_
      simp [Value.Readable, isNumber_text]
  rw [toJson_eq]
  refine readableFields_iff.mpr ?_
  simp only [List.forall_mem_append, List.forall_mem_cons, forall_unlessBlank, forall_unlessEmpty]
  simp [ids, Value.Readable, isNumber_text, readableItems_iff]

end PathResult

namespace Report

/-! ## Counts -/

section Counts

variable {visits given : List (Int × Int)}

/-- A count as a field. -/
def visitField (v : Int × Int) : String × Value := (Decimal.text v.1, .num (Decimal.text v.2))

def readVisit (f : String × Value) : Option (Int × Int) := do
  pure (← Decimal.readWord? f.1, ← Decoder.word 0 [f.2])

theorem readVisit_written {v : Int × Int} (words : fitsWord v.1 = true ∧ fitsWord v.2 = true) :
    readVisit (visitField v) = some v := by
  have bounds := fitsWord_iff.mp words.1
  simp [readVisit, visitField, Decimal.readWord?_text bounds.1 bounds.2, word_written 0 words.2]

/-- No count is dropped where each node has one. -/
theorem foldl_distinct (done : List (Int × Int)) (distinct : given.Pairwise (·.1 ≠ ·.1))
    (apart : ∀ p ∈ given, ∀ q ∈ done, q.1 ≠ p.1) :
    given.foldl (fun done p => p :: done.filter (·.1 != p.1)) done = given.reverse ++ done := by
  induction given generalizing done with
  | nil => rfl
  | cons p given ih =>
    have kept : done.filter (·.1 != p.1) = done :=
      List.filter_eq_self.mpr fun q member => by simpa using apart p List.mem_cons_self q member
    rw [List.pairwise_cons] at distinct
    rw [List.foldl_cons, kept, ih _ distinct.2]
    · simp
    · intro p' member q there
      rcases List.mem_cons.mp there with rfl | there
      · exact distinct.1 p' member
      · exact apart p' (List.mem_cons_of_mem p member) q there

theorem sort_visits (sorted : visits.Pairwise (·.1 < ·.1)) (same : given.Perm visits) :
    given.mergeSort (fun a b => a.1 ≤ b.1) = visits := by
  have ordered : (given.mergeSort fun a b => a.1 ≤ b.1).Pairwise (·.1 ≤ ·.1) := by
    simpa using @List.pairwise_mergeSort (Int × Int) (fun a b => a.1 ≤ b.1)
      (fun a b c ab bc => by simp at *; omega) (fun a b => by simp; omega) given
  refine List.Perm.eq_of_pairwise ?_ ordered (sorted.imp Int.le_of_lt)
    ((List.mergeSort_perm given _).trans same)
  intro a b member there below above
  have distinct : (visits.map (·.1)).Nodup :=
    List.pairwise_map.mpr (sorted.imp Int.ne_of_lt)
  have here : a ∈ visits := same.mem_iff.mp (List.mem_mergeSort.mp member)
  exact List.inj_on_of_nodup_map distinct here there (Int.le_antisymm below above)

/-- The counts are read back in the order of the nodes. -/
theorem visitsOf_written (words : ∀ v ∈ visits, fitsWord v.1 = true ∧ fitsWord v.2 = true)
    (sorted : visits.Pairwise (·.1 < ·.1)) :
    visitsOf [] [.obj (visitFields visits)] = some visits := by
  have fields : (visitFields visits).Perm (visits.map visitField) := List.mergeSort_perm _ _
  -- the counts in the order of the texts of their nodes
  generalize shown : (visitFields visits).map (fun f => (readVisit f).getD (0, 0)) = given
  have read : (visitFields visits).mapM readVisit = some given := by
    rw [← shown]
    refine mapM_some fun f member => ?_
    obtain ⟨v, there, rfl⟩ := List.mem_map.mp (fields.mem_iff.mp member)
    rw [readVisit_written (words v there)]
    rfl
  have same : given.Perm visits := by
    have back : visits.map ((fun f => (readVisit f).getD (0, 0)) ∘ visitField) = visits.map fun v => v :=
      List.map_congr_left fun v there => by simp [readVisit_written (words v there)]
    have mapped := fields.map fun f => (readVisit f).getD (0, 0)
    rwa [shown, List.map_map, back, List.map_id'] at mapped
  have distinct : given.Pairwise (·.1 ≠ ·.1) :=
    (same.pairwise_iff fun apart => apart.symm).mpr (sorted.imp Int.ne_of_lt)
  have all := foldl_distinct [] distinct (by simp)
  have once : visitsOf [] [.obj (visitFields visits)] = ((visitFields visits).mapM readVisit).bind
      fun given => some ((given.foldl (fun done p => p :: done.filter (·.1 != p.1)) []).mergeSort
        fun a b => a.1 ≤ b.1) := by
    simp [visitsOf, inTurn]
    rfl
  rw [once, read, Option.bind_some, all, List.append_nil,
    sort_visits sorted (given.reverse_perm.trans same)]

end Counts

/-! ## Reports -/

/-- A report that was made at a moment, whose numbers are words, and which counts each node once. -/
structure Proper (r : Report) : Prop where
  createdAt : ∃ t : Moment, t.Ordinary ∧ t.text? = some r.createdAt
  nodes : fitsWord r.nodes = true
  steps : fitsWord r.steps = true
  terminals : ∀ rs ∈ r.terminals, ∀ x ∈ rs, x.Proper
  failures : ∀ rs ∈ r.failures, ∀ x ∈ rs, x.Proper
  visits : ∀ v ∈ r.visits, fitsWord v.1 = true ∧ fitsWord v.2 = true
  sorted : r.visits.Pairwise (·.1 < ·.1)

theorem proper_bare {id createdAt sealed : String}
    (made : ∃ t : Moment, t.Ordinary ∧ t.text? = some createdAt) :
    ({ id, createdAt, sealed } : Report).Proper where
  createdAt := made
  nodes := show fitsWord 0 = true by decide
  steps := show fitsWord 0 = true by decide
  terminals := by simp
  failures := by simp
  visits := by simp
  sorted := List.Pairwise.nil

theorem paths_written {old given : Option (List PathResult)}
    (proper : ∀ rs ∈ given, ∀ x ∈ rs, x.Proper) : paths old [listJson given] = some given := by
  cases given with
  | none => exact list_null old
  | some rs => exact list_written old fun x member => PathResult.read_toJson (proper rs rfl x member)

theorem moment_written {r : Report} (made : ∃ t : Moment, t.Ordinary ∧ t.text? = some r.createdAt)
    (old : String) : moment old [.str r.createdAt] = some r.createdAt := by
  obtain ⟨t, ordinary, text⟩ := made
  simp [moment, inTurn, Moment.ofRfc3339?_text ordinary text, text]

theorem flag_written (b : Bool) : Decoder.flag false (if b = true then [.bool true] else []) = some b := by
  cases b <;> rfl

theorem ofJson?_toJson {r : Report} (proper : r.Proper) : ofJson? r.toJson = some r := by
  rw [ofJson?, toJson, record_written]
  case exact =>
    simp only [List.forall_mem_append, List.forall_mem_cons, forall_unlessBlank]
    simp [fields, field]
  have visits : visitsOf [] (if r.visits = [] then [] else [.obj (visitFields r.visits)]) =
      some r.visits := by
    by_cases empty : r.visits = []
    · simp [empty, visitsOf, inTurn]
    · simp [empty, visitsOf_written proper.visits proper.sorted]
  simp only [fields, field, List.foldlM_cons, List.foldlM_nil, given_append, given_cons, given_nil,
    given_unlessBlank, given_ite]
  simp [word_written 0 proper.nodes, word_written 0 proper.steps, text_written, text_unlessBlank,
    flag_written, moment_written proper.createdAt, paths_written proper.terminals,
    paths_written proper.failures, visits]

theorem readable_listJson (rs : Option (List PathResult)) : (listJson rs).Readable 3 := by
  cases rs with
  | none => trivial
  | some rs =>
    refine readableItems_iff.mpr fun v member => ?_
    obtain ⟨x, _, rfl⟩ := List.mem_map.mp member
    exact x.readable_toJson

theorem readable_visitFields (visits : List (Int × Int)) :
    (Value.obj (visitFields visits)).Readable 3 := by
  refine readableFields_iff.mpr fun f member => ?_
  obtain ⟨v, _, rfl⟩ := List.mem_map.mp (List.mem_mergeSort.mp member)
  exact isNumber_text v.2

theorem readable_toJson (r : Report) : r.toJson.Readable 4 := by
  rw [toJson]
  refine readableFields_iff.mpr ?_
  have counts := readable_visitFields r.visits
  simp only [Value.Readable] at counts
  simp only [List.forall_mem_append, List.forall_mem_cons, forall_unlessBlank]
  simp [Value.Readable, isNumber_text, readable_listJson, counts]

theorem parse?_render {r : Report} (proper : r.Proper) : parse? r.render = some r := by
  rw [parse?, render, Json.transcript?_render r.readable_toJson (by decide), Option.bind_some,
    ofJson?_toJson proper]

end Report

end StackFlow
