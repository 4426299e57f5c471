import StackFlow.Json.Reader
import StackFlow.Json.Writer

/-!
JSON text determines the value that it was written from. The text of a value says by itself where it
ends, so the text of a list splits into the texts of its elements in one way only. What is between
quotes is read back by the reader; a number ends where no character of a number follows.
-/

namespace StackFlow.Json

/-! ## Text between quotes -/

theorem hexValue?_hexDigit {d : Nat} (small : d < 16) : hexValue? (Text.hexDigit d) = some d := by
  have all : ∀ d < 16, hexValue? (Text.hexDigit d) = some d := by decide
  exact all d small

theorem hexUnit?_hexDigits {n : Nat} (small : n < 0x10000) :
    ∃ a b c d, Text.hexDigits 4 n = [a, b, c, d] ∧ hexUnit? a b c d = some n := by
  refine ⟨_, _, _, _, rfl, ?_⟩
  have digit (m : Nat) := hexValue?_hexDigit (Nat.mod_lt m (show 0 < 16 by decide))
  simp only [hexUnit?, digit, Option.pure_def, Option.bind_eq_bind, Option.bind_some,
    Option.some.injEq]
  omega

/-- A character that stands for itself is read as itself. -/
theorem scanString_plain {c : Char} (quote : c ≠ '"') (slash : c ≠ '\\')
    (printed : ¬ c.toNat < 0x20) (rest : List Char) (units : List Nat) :
    scanString (c :: rest) units = scanString rest (c.toNat :: units) := by
  rw [scanString.eq_def]
  split
  · contradiction
  · rename_i same
    exact absurd (List.cons.inj same).1 quote
  · rename_i same
    exact absurd (List.cons.inj same).1 slash
  · rename_i same
    exact absurd (List.cons.inj same).1 slash
  · rename_i same
    obtain ⟨rfl, rfl⟩ := List.cons.inj same
    rw [if_neg (by simp [slash, printed])]

theorem scanString_escape (c : Char) (rest : List Char) (units : List Nat) :
    scanString (escapeChar c ++ rest) units = scanString rest (c.toNat :: units) := by
  unfold escapeChar
  split
  · rfl
  · rfl
  · rfl
  · rfl
  · rfl
  · rename_i quote slash _ _ _
    split
    · rename_i code
      rw [code]
      rfl
    · split
      · rename_i code
        rw [code]
        rfl
      · split
        · rename_i code
          have small : c.toNat < 0x10000 := by
            simp only [Bool.or_eq_true, decide_eq_true_eq] at code
            rcases code with ((((code | rfl) | rfl) | rfl) | code) | code
            · omega
            · decide
            · decide
            · decide
            · omega
            · omega
          obtain ⟨a, b, c', d, digits, unit⟩ := hexUnit?_hexDigits small
          rw [digits]
          simp only [List.cons_append, List.nil_append, scanString, unit]
        · rename_i code
          simp only [Bool.or_eq_true, decide_eq_true_eq, not_or] at code
          exact scanString_plain quote slash code.1.1.1.1.1 rest units

theorem scanString_escapes (cs rest : List Char) (units : List Nat) :
    scanString (cs.flatMap escapeChar ++ '"' :: rest) units =
      some ((cs.map Char.toNat).reverse ++ units, rest) := by
  induction cs generalizing units with
  | nil => rfl
  | cons c cs ih =>
    rw [List.flatMap_cons, List.append_assoc, scanString_escape, ih]
    simp

theorem quoteText_inj {s s' : String} {k k' : List Char}
    (same : quoteText s ++ k = quoteText s' ++ k') :
    s = s' ∧ k = k' := by
  simp only [quoteText, List.cons_append, List.append_assoc, List.nil_append, List.cons.injEq,
    true_and] at same
  have read := congrArg (scanString · []) same
  simp only [scanString_escapes, List.append_nil, Option.some.injEq, Prod.mk.injEq,
    List.reverse_inj] at read
  obtain ⟨codes, rest⟩ := read
  have chars := (List.map_inj_right fun _ _ => Char.toNat_inj.mp).mp codes
  exact ⟨String.toList_inj.mp chars, rest⟩

/-! ## Numbers -/

def isNumeric (c : Char) : Bool :=
  c.isDigit || c = '-' || c = '+' || c = '.' || c = 'e' || c = 'E'

mutual

/-- Whether every number in a value is a text that a number can be. -/
def Value.isTidy : Value → Bool
  | .num t => t != "" && t.toList.all isNumeric
  | .arr items => tidyItems items
  | .obj fields => tidyFields fields
  | _ => true

def tidyItems : List Value → Bool
  | [] => true
  | v :: vs => v.isTidy && tidyItems vs

def tidyFields : List (String × Value) → Bool
  | [] => true
  | (_, v) :: fs => v.isTidy && tidyFields fs

end

/-- The text does not go on with characters of a kind. -/
def Stops (p : Char → Bool) (k : List Char) : Prop := ∀ c ∈ k.head?, p c = false

/-- A run of characters of a kind ends where the next one is of another kind. -/
theorem run_inj {p : Char → Bool} {t t' k k' : List Char} (inside : t.all p = true)
    (inside' : t'.all p = true) (stops : Stops p k) (stops' : Stops p k')
    (same : t ++ k = t' ++ k') :
    t = t' ∧ k = k' := by
  have none {k : List Char} (stops : Stops p k) : k.takeWhile p = [] := by
    cases k with
    | nil => rfl
    | cons c k => simp [stops c rfl]
  have taken := congrArg (List.takeWhile p) same
  rw [List.takeWhile_append_of_pos (List.all_eq_true.mp inside), none stops,
    List.takeWhile_append_of_pos (List.all_eq_true.mp inside'), none stops'] at taken
  simp only [List.append_nil] at taken
  subst taken
  exact ⟨rfl, List.append_cancel_left same⟩

/-! ## Values -/

/-- The first character of the text of a value, unless the value is a number. -/
def Value.lead : Value → Option Char
  | .null => some 'n'
  | .bool true => some 't'
  | .bool false => some 'f'
  | .num _ => none
  | .str _ => some '"'
  | .arr _ => some '['
  | .obj _ => some '\x7b'

theorem write_lead {v : Value} (tidy : v.isTidy = true) (k : List Char) :
    ∃ c rest, v.write k = c :: rest ∧
      if isNumeric c = true then v.lead = none else v.lead = some c := by
  cases v with
  | null => exact ⟨_, _, rfl, rfl⟩
  | bool b => cases b <;> exact ⟨_, _, rfl, rfl⟩
  | str s => exact ⟨_, _, rfl, rfl⟩
  | arr items => cases items <;> exact ⟨_, _, rfl, rfl⟩
  | obj fields =>
    cases fields with
    | nil => exact ⟨_, _, rfl, rfl⟩
    | cons f fs => exact ⟨_, _, rfl, rfl⟩
  | num t =>
    simp only [Value.isTidy, Bool.and_eq_true, bne_iff_ne, ne_eq] at tidy
    cases chars : t.toList with
    | nil => exact absurd (String.toList_eq_nil_iff.mp chars) tidy.1
    | cons c rest =>
      rw [chars, List.all_cons, Bool.and_eq_true] at tidy
      exact ⟨c, rest ++ k, by simp [Value.write, chars], by simp [tidy.2.1, Value.lead]⟩

theorem lead_of_same {v v' : Value} {k k' : List Char} (tidy : v.isTidy = true)
    (tidy' : v'.isTidy = true) (same : v.write k = v'.write k') : v.lead = v'.lead := by
  obtain ⟨c, rest, text, lead⟩ := write_lead tidy k
  obtain ⟨c', rest', text', lead'⟩ := write_lead tidy' k'
  obtain ⟨rfl, _⟩ := List.cons.inj (text.symm.trans (same.trans text'))
  split at lead
  · rename_i numeric
    rw [lead, (if_pos numeric).mp lead']
  · rename_i other
    rw [lead, (if_neg other).mp lead']

theorem write_ne_close {v : Value} {k rest : List Char} (tidy : v.isTidy = true) :
    v.write k ≠ ']' :: rest := by
  intro text
  obtain ⟨c, rest', text', lead⟩ := write_lead tidy k
  obtain ⟨rfl, _⟩ := List.cons.inj (text'.symm.trans text)
  have lead : v.lead = some ']' := lead
  unfold Value.lead at lead
  split at lead <;> simp at lead

theorem stops_close {c : Char} {k : List Char} (other : isNumeric c = false) :
    Stops isNumeric (c :: k) := by
  rintro d ⟨⟩
  exact other

theorem stops_items {vs : List Value} {c : Char} {k : List Char} (other : isNumeric c = false) :
    Stops isNumeric (writeItems vs (c :: k)) := by
  cases vs with
  | nil => exact stops_close other
  | cons v vs => exact stops_close rfl

theorem stops_fields {fs : Fields} {c : Char} {k : List Char} (other : isNumeric c = false) :
    Stops isNumeric (writeFields fs (c :: k)) := by
  cases fs with
  | nil => exact stops_close other
  | cons f fs => exact stops_close rfl

/-- Two lists in brackets agree as they do behind a separator. -/
theorem items_of_same {vs vs' : List Value} {k k' : List Char} (tidy : tidyItems vs = true)
    (tidy' : tidyItems vs' = true) (same : (Value.arr vs).write k = (Value.arr vs').write k') :
    writeItems vs (']' :: k) = writeItems vs' (']' :: k') := by
  cases vs with
  | nil =>
    cases vs' with
    | nil => exact (List.cons.inj same).2
    | cons w ws =>
      simp only [tidyItems, Bool.and_eq_true] at tidy'
      exact absurd (List.cons.inj same).2.symm (write_ne_close tidy'.1)
  | cons v vs =>
    cases vs' with
    | nil =>
      simp only [tidyItems, Bool.and_eq_true] at tidy
      exact absurd (List.cons.inj same).2 (write_ne_close tidy.1)
    | cons w ws => exact congrArg (',' :: ·) (List.cons.inj same).2

theorem fields_of_same {fs fs' : Fields} {k k' : List Char}
    (same : (Value.obj fs).write k = (Value.obj fs').write k') :
    writeFields fs ('\x7d' :: k) = writeFields fs' ('\x7d' :: k') := by
  cases fs with
  | nil =>
    cases fs' with
    | nil => exact (List.cons.inj same).2
    | cons f fs => simp [Value.write, quoteText] at same
  | cons f fs =>
    cases fs' with
    | nil => simp [Value.write, quoteText] at same
    | cons f' fs' => exact congrArg (',' :: ·) (List.cons.inj same).2

mutual

/-- The text of a value determines the value, and where the text ends. -/
theorem write_inj : ∀ (v v' : Value) (k k' : List Char), v.isTidy = true → v'.isTidy = true →
    Stops isNumeric k → Stops isNumeric k' → v.write k = v'.write k' → v = v' ∧ k = k'
  | v, v', k, k', tidy, tidy', stops, stops', same => by
    -- the first characters leave only values of one kind
    have lead := lead_of_same tidy tidy' same
    cases v with
    | null =>
      cases v' with
      | null => simpa [Value.write] using same
      | bool b => cases b <;> cases lead
      | num | str | arr | obj => cases lead
    | bool b =>
      cases v' with
      | bool b' => cases b <;> cases b' <;> simp_all [Value.write, Value.lead]
      | null | num | str | arr | obj => cases b <;> cases lead
    | num t =>
      cases v' with
      | num t' =>
        simp only [Value.isTidy, Bool.and_eq_true] at tidy tidy'
        obtain ⟨text, ends⟩ := run_inj tidy.2 tidy'.2 stops stops' same
        exact ⟨by rw [String.toList_inj.mp text], ends⟩
      | bool b => cases b <;> cases lead
      | null | str | arr | obj => cases lead
    | str s =>
      cases v' with
      | str s' =>
        obtain ⟨rfl, ends⟩ := quoteText_inj same
        exact ⟨rfl, ends⟩
      | bool b => cases b <;> cases lead
      | null | num | arr | obj => cases lead
    | arr items =>
      cases v' with
      | arr items' =>
        obtain ⟨rfl, ends⟩ := writeItems_inj items items' k k' tidy tidy'
          (items_of_same tidy tidy' same)
        exact ⟨rfl, ends⟩
      | bool b => cases b <;> cases lead
      | null | num | str | obj => cases lead
    | obj fields =>
      cases v' with
      | obj fields' =>
        obtain ⟨rfl, ends⟩ := writeFields_inj fields fields' k k' tidy tidy' (fields_of_same same)
        exact ⟨rfl, ends⟩
      | bool b => cases b <;> cases lead
      | null | num | str | arr => cases lead

theorem writeItems_inj : ∀ (vs vs' : List Value) (k k' : List Char), tidyItems vs = true →
    tidyItems vs' = true → writeItems vs (']' :: k) = writeItems vs' (']' :: k') →
    vs = vs' ∧ k = k'
  | [], [], _, _, _, _, same => by simpa [writeItems] using same
  | [], _ :: _, _, _, _, _, same => by simp [writeItems] at same
  | _ :: _, [], _, _, _, _, same => by simp [writeItems] at same
  | v :: vs, v' :: vs', k, k', tidy, tidy', same => by
    simp only [tidyItems, Bool.and_eq_true] at tidy tidy'
    obtain ⟨rfl, behind⟩ := write_inj v v' _ _ tidy.1 tidy'.1 (stops_items rfl) (stops_items rfl)
      (List.cons.inj same).2
    obtain ⟨rfl, ends⟩ := writeItems_inj vs vs' k k' tidy.2 tidy'.2 behind
    exact ⟨rfl, ends⟩

theorem writeFields_inj : ∀ (fs fs' : Fields) (k k' : List Char), tidyFields fs = true →
    tidyFields fs' = true → writeFields fs ('\x7d' :: k) = writeFields fs' ('\x7d' :: k') →
    fs = fs' ∧ k = k'
  | [], [], _, _, _, _, same => by simpa [writeFields] using same
  | [], (_, _) :: _, _, _, _, _, same => by simp [writeFields] at same
  | (_, _) :: _, [], _, _, _, _, same => by simp [writeFields] at same
  | (key, v) :: fs, (key', v') :: fs', k, k', tidy, tidy', same => by
    simp only [tidyFields, Bool.and_eq_true] at tidy tidy'
    obtain ⟨rfl, colon⟩ := quoteText_inj (List.cons.inj same).2
    obtain ⟨rfl, behind⟩ := write_inj v v' _ _ tidy.1 tidy'.1 (stops_fields rfl) (stops_fields rfl)
      (List.cons.inj colon).2
    obtain ⟨rfl, ends⟩ := writeFields_inj fs fs' k k' tidy.2 tidy'.2 behind
    exact ⟨rfl, ends⟩

end

theorem render_inj {v v' : Value} (tidy : v.isTidy = true) (tidy' : v'.isTidy = true)
    (same : v.render = v'.render) : v = v' := by
  have text : v.write [] = v'.write [] := String.ofList_injective same
  exact (write_inj v v' [] [] tidy tidy' (by simp [Stops]) (by simp [Stops]) text).1

end StackFlow.Json
