import StackFlow.Proofs.Writing
import StackFlow.Ty

/-!
The text of a type determines the type, as long as the names in it are ordinary: a name ends at the
first character that no ordinary name has, and the text of a component at a comma or a parenthesis.
Main statement: types of ordinary names have the same text exactly if they are the same.
-/

namespace StackFlow.Ty

def isNameChar (c : Char) : Bool := !(c = '(' || c = ')' || c = ',' || c = ' ' || c = '?')

mutual

/-- Whether the names in a type are not empty and free of what stands around names in its text. -/
def isOrdinary : Ty → Bool
  | .unknown => true
  | .app name args => name != "" && name.toList.all isNameChar && areOrdinary args

def areOrdinary : List Ty → Bool
  | [] => true
  | t :: ts => t.isOrdinary && areOrdinary ts

end

/-- The texts of further components, each behind a comma. -/
def moreTexts : List Ty → List Char
  | [] => []
  | t :: ts => ',' :: ' ' :: (t.text.toList ++ moreTexts ts)

theorem intercalate_texts (t : Ty) (ts : List Ty) :
    (", ".intercalate (t.text :: texts ts)).toList = t.text.toList ++ moreTexts ts := by
  induction ts generalizing t with
  | nil => simp [texts, moreTexts]
  | cons u us ih =>
    rw [texts, String.intercalate_cons_cons, String.toList_append, String.toList_append, ih u]
    simp [moreTexts]

/-- What stands behind the name of a type. -/
def argTexts : List Ty → List Char
  | [] => []
  | t :: ts => '(' :: (t.text.toList ++ (moreTexts ts ++ [')']))

theorem text_app (name : String) (args : List Ty) :
    (app name args).text.toList = name.toList ++ argTexts args := by
  cases args with
  | nil => simp [text, argTexts]
  | cons t ts =>
    rw [text, String.toList_append, String.toList_append, String.toList_append, intercalate_texts]
    simp [argTexts]

/-- A text in which a component has ended: it goes on with a comma or a parenthesis. -/
def Ends (k : List Char) : Prop := ∀ c ∈ k.head?, c = ',' ∨ c = ')'

theorem Ends.stops {k : List Char} (ends : Ends k) : Json.Stops isNameChar k := by
  intro c first
  rcases ends c first with rfl | rfl
  · rfl
  · rfl

theorem ends_more (ts : List Ty) (k : List Char) : Ends (moreTexts ts ++ ')' :: k) := by
  cases ts with
  | nil =>
    rintro c ⟨⟩
    exact .inr rfl
  | cons t ts =>
    rintro c ⟨⟩
    exact .inl rfl

theorem stops_args (args : List Ty) {k : List Char} (ends : Ends k) :
    Json.Stops isNameChar (argTexts args ++ k) := by
  cases args with
  | nil => exact ends.stops
  | cons t ts =>
    rintro c ⟨⟩
    rfl

/-- A name does not start like the text of an unknown type. -/
theorem text_ne_unknown {name : String} {args : List Ty} {k rest : List Char}
    (ordinary : (app name args).isOrdinary = true) :
    (app name args).text.toList ++ k ≠ '?' :: rest := by
  intro same
  simp only [isOrdinary, Bool.and_eq_true, bne_iff_ne] at ordinary
  rw [text_app] at same
  cases chars : name.toList with
  | nil => exact ordinary.1.1 (String.toList_eq_nil_iff.mp chars)
  | cons c cs =>
    rw [chars, List.all_cons, Bool.and_eq_true] at ordinary
    rw [chars] at same
    cases (List.cons.inj same).1
    exact absurd ordinary.1.2.1 (by decide)

mutual

/-- The text of a type determines the type, and where the text ends. -/
theorem text_append_inj : ∀ (t t' : Ty) (k k' : List Char), t.isOrdinary = true →
    t'.isOrdinary = true → Ends k → Ends k' → t.text.toList ++ k = t'.text.toList ++ k' →
    t = t' ∧ k = k'
  | .unknown, .unknown, _, _, _, _, _, _, same => ⟨rfl, List.append_cancel_left same⟩
  | .unknown, .app _ _, _, _, _, ordinary, _, _, same =>
    absurd same.symm (text_ne_unknown ordinary)
  | .app _ _, .unknown, _, _, ordinary, _, _, _, same => absurd same (text_ne_unknown ordinary)
  | .app name args, .app name' args', k, k', ordinary, ordinary', ends, ends', same => by
    simp only [isOrdinary, Bool.and_eq_true] at ordinary ordinary'
    rw [text_app, text_app, List.append_assoc, List.append_assoc] at same
    -- the name ends before its components, or where the whole type ends
    obtain ⟨names, behind⟩ := Json.run_inj ordinary.1.2 ordinary'.1.2 (stops_args args ends)
      (stops_args args' ends') same
    obtain ⟨rfl, rest⟩ := args_inj args args' k k' ordinary.2 ordinary'.2 ends ends' behind
    exact ⟨by rw [String.toList_inj.mp names], rest⟩

theorem args_inj : ∀ (ts ts' : List Ty) (k k' : List Char), areOrdinary ts = true →
    areOrdinary ts' = true → Ends k → Ends k' → argTexts ts ++ k = argTexts ts' ++ k' →
    ts = ts' ∧ k = k'
  | [], [], _, _, _, _, _, _, same => ⟨rfl, same⟩
  | [], _ :: _, _, _, _, _, ends, _, same => by
    simp only [argTexts, List.nil_append] at same
    subst same
    exact absurd (ends '(' rfl) (by decide)
  | _ :: _, [], _, _, _, _, _, ends, same => by
    simp only [argTexts, List.nil_append] at same
    subst same
    exact absurd (ends '(' rfl) (by decide)
  | t :: ts, t' :: ts', k, k', ordinary, ordinary', _, _, same => by
    simp only [areOrdinary, Bool.and_eq_true] at ordinary ordinary'
    simp only [argTexts, List.cons_append, List.append_assoc, List.cons.injEq, true_and,
      List.nil_append] at same
    obtain ⟨rfl, behind⟩ := text_append_inj t t' _ _ ordinary.1 ordinary'.1 (ends_more ts k)
      (ends_more ts' k') same
    obtain ⟨rfl, rest⟩ := more_inj ts ts' k k' ordinary.2 ordinary'.2 behind
    exact ⟨rfl, rest⟩

theorem more_inj : ∀ (ts ts' : List Ty) (k k' : List Char), areOrdinary ts = true →
    areOrdinary ts' = true → moreTexts ts ++ ')' :: k = moreTexts ts' ++ ')' :: k' →
    ts = ts' ∧ k = k'
  | [], [], _, _, _, _, same => by simpa [moreTexts] using same
  | [], _ :: _, _, _, _, _, same => by simp [moreTexts] at same
  | _ :: _, [], _, _, _, _, same => by simp [moreTexts] at same
  | t :: ts, t' :: ts', k, k', ordinary, ordinary', same => by
    simp only [areOrdinary, Bool.and_eq_true] at ordinary ordinary'
    simp only [moreTexts, List.cons_append, List.append_assoc, List.cons.injEq, true_and] at same
    obtain ⟨rfl, behind⟩ := text_append_inj t t' _ _ ordinary.1 ordinary'.1 (ends_more ts k)
      (ends_more ts' k') same
    obtain ⟨rfl, ends⟩ := more_inj ts ts' k k' ordinary.2 ordinary'.2 behind
    exact ⟨rfl, ends⟩

end

theorem text_inj {t t' : Ty} (ordinary : t.isOrdinary = true) (ordinary' : t'.isOrdinary = true)
    (same : t.text = t'.text) : t = t' :=
  (text_append_inj t t' [] [] ordinary ordinary' (by simp [Ends]) (by simp [Ends]) (by rw [same])).1

/-! ## Ordinary names -/

mutual

/-- The names in a type, from left to right; an unknown component has none. -/
def names : Ty → List String
  | .unknown => []
  | .app name args => name :: namesOfAll args

def namesOfAll : List Ty → List String
  | [] => []
  | t :: ts => t.names ++ namesOfAll ts

end

def IsOrdinaryName (name : String) : Prop :=
  name ≠ "" ∧ ∀ c ∈ name.toList, c ∉ ['(', ')', ',', ' ', '?']

theorem isNameChar_iff {c : Char} : isNameChar c = true ↔ c ∉ ['(', ')', ',', ' ', '?'] := by
  simp [isNameChar, and_assoc]

mutual

theorem isOrdinary_iff : ∀ t : Ty, t.isOrdinary = true ↔ ∀ name ∈ t.names, IsOrdinaryName name
  | .unknown => by simp [isOrdinary, names]
  | .app name args => by
    rw [isOrdinary, names, List.forall_mem_cons, ← areOrdinary_iff args]
    simp only [Bool.and_eq_true, bne_iff_ne, List.all_eq_true, isNameChar_iff, IsOrdinaryName]

theorem areOrdinary_iff :
    ∀ ts : List Ty, areOrdinary ts = true ↔ ∀ name ∈ namesOfAll ts, IsOrdinaryName name
  | [] => by simp [areOrdinary, namesOfAll]
  | t :: ts => by
    rw [areOrdinary, namesOfAll, List.forall_mem_append, ← isOrdinary_iff t, ← areOrdinary_iff ts,
      Bool.and_eq_true]

end

/-- Types whose names are all ordinary, with or without unknown components, have the same text
exactly if they are the same. -/
theorem ordinary_types_told_apart {t t' : Ty}
    (ordinary : ∀ name ∈ t.names ++ t'.names, IsOrdinaryName name) :
    t.text = t'.text ↔ t = t' := by
  obtain ⟨left, right⟩ := List.forall_mem_append.mp ordinary
  constructor
  · exact text_inj ((isOrdinary_iff t).mpr left) ((isOrdinary_iff t').mpr right)
  · rintro rfl
    rfl

def nestedLeft : Ty := pair (pair .unknown int) (.app "list" [nat])

def nestedRight : Ty := pair .unknown (pair int (.app "list" [nat]))

/-- Pairs of the same components in the same order. -/
theorem nested_pairs_told_apart :
    (∀ name ∈ nestedLeft.names ++ nestedRight.names, IsOrdinaryName name) ∧
    nestedLeft.text ≠ nestedRight.text := by
  have left : nestedLeft.isOrdinary = true := by decide
  have right : nestedRight.isOrdinary = true := by decide
  have ordinary : ∀ name ∈ nestedLeft.names ++ nestedRight.names, IsOrdinaryName name :=
    List.forall_mem_append.mpr ⟨(isOrdinary_iff _).mp left, (isOrdinary_iff _).mp right⟩
  refine ⟨ordinary, fun same => ?_⟩
  have alike := (ordinary_types_told_apart ordinary).mp same
  simp [nestedLeft, nestedRight, pair] at alike

end StackFlow.Ty
