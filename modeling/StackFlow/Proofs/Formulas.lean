import StackFlow.Item.Printer
import StackFlow.Proofs.Writing

/-!
Printed expressions are read in one way only: an operand ends at the blank before an operator or at
the parenthesis that closes it. Main statement: two items built of operators, comparisons and
negations over plain leaves have the same text exactly if they are the same tree over the same leaf
texts.
-/

namespace StackFlow

/-- A tree of operators over texts. -/
inductive Formula where
  | leaf (text : String)
  | joined (operator : String) (left right : Formula)
  | negated (body : Formula)
deriving DecidableEq, Repr

namespace Formula

/-- The sign between two operands, of an operator or of a comparison. -/
def sign? (operator : String) : Option String :=
  (Item.operatorSign? operator).or (Item.comparisonSign? operator)

/-- The characters of a plain leaf: none that stands around operands. -/
def isLeafChar (c : Char) : Bool := !(c = ' ' || c = '(' || c = ')' || c = ',' || c = '!')

/-- A text that can be told from what stands around it. -/
def Plain (t : String) : Prop := t ≠ "" ∧ t.toList.all isLeafChar = true

def Proper : Formula → Prop
  | .leaf t => Plain t
  | .joined operator a b => (sign? operator).isSome ∧ a.Proper ∧ b.Proper
  | .negated a => a.Proper

def between (operator : String) (left right : List Char) : List Char :=
  left ++ ' ' :: (((sign? operator).getD "").toList ++ ' ' :: right)

/-- The text as an operand of an operator. -/
def operand : Formula → List Char
  | .leaf t => t.toList
  | .joined operator a b => '(' :: (between operator a.operand b.operand ++ [')'])
  | .negated a => '!' :: a.operand

def text : Formula → List Char
  | .joined operator a b => between operator a.operand b.operand
  | e => e.operand

/-! ## Signs -/

section Signs

variable {p q s : String}

/-- The operators with their signs. -/
def signs : List (String × String) :=
  [("ADD", "+"), ("SUB", "-"), ("MUL", "*"), ("AND", "&"), ("OR", "|"), ("XOR", "^"), ("EQ", "=="),
    ("NEQ", "<>"), ("LT", "<"), ("GT", ">"), ("LE", "<="), ("GE", ">=")]

theorem sign?_eq (p : String) : sign? p = signs.lookup p := by
  simp only [sign?, Item.operatorSign?, Item.comparisonSign?, signs, List.lookup_cons, List.lookup_nil]
  repeat' split
  all_goals rfl

theorem mem_signs (found : sign? p = some s) : (p, s) ∈ signs := by
  rw [sign?_eq] at found
  obtain ⟨before, after, same, _⟩ := List.lookup_eq_some_iff.mp found
  simp [same]

theorem sign_spaceless (found : sign? p = some s) : s.toList.all (· != ' ') = true := by
  have all : ∀ entry ∈ signs, entry.2.toList.all (· != ' ') = true := by decide
  exact all _ (mem_signs found)

theorem sign_inj (found : sign? p = some s) (found' : sign? q = some s) : p = q := by
  have all : ∀ entry ∈ signs, ∀ other ∈ signs, entry.2 = other.2 → entry.1 = other.1 := by decide
  exact all _ (mem_signs found) _ (mem_signs found') rfl

end Signs

/-! ## Reading back -/

section Reading

variable {e e' : Formula} {k k' : List Char}

theorem plain_head {t : String} (plain : Plain t) :
    ∃ c cs, t.toList = c :: cs ∧ isLeafChar c = true := by
  obtain ⟨filled, chars⟩ := plain
  cases letters : t.toList with
  | nil => exact absurd (String.toList_eq_nil_iff.mp letters) filled
  | cons c cs =>
    rw [letters, List.all_cons, Bool.and_eq_true] at chars
    exact ⟨c, cs, rfl, chars.1⟩

/-- A leaf does not start like a longer operand. -/
theorem leaf_apart {t : String} {c : Char} {rest : List Char} (plain : Plain t)
    (other : isLeafChar c = false) : t.toList ++ k ≠ c :: rest := by
  obtain ⟨d, ds, letters, inside⟩ := plain_head plain
  intro same
  rw [letters] at same
  cases (List.cons.inj same).1
  exact absurd (inside.symm.trans other) (by decide)

theorem stops_blank (rest : List Char) : Json.Stops isLeafChar (' ' :: rest) := by
  rintro c ⟨⟩
  rfl

theorem stops_close (rest : List Char) : Json.Stops isLeafChar (')' :: rest) := by
  rintro c ⟨⟩
  rfl

/-- Where the operands of a formula end, its text does. -/
theorem between_inj {op op' : String} {a b a' b' : Formula}
    (left : ∀ k k', Json.Stops isLeafChar k → Json.Stops isLeafChar k' →
      a.operand ++ k = a'.operand ++ k' → a = a' ∧ k = k')
    (right : b.operand ++ k = b'.operand ++ k' → b = b' ∧ k = k')
    (signed : (sign? op).isSome) (signed' : (sign? op').isSome)
    (same : between op a.operand b.operand ++ k = between op' a'.operand b'.operand ++ k') :
    Formula.joined op a b = .joined op' a' b' ∧ k = k' := by
  obtain ⟨s, found⟩ := Option.isSome_iff_exists.mp signed
  obtain ⟨s', found'⟩ := Option.isSome_iff_exists.mp signed'
  simp only [between, found, found', Option.getD_some, List.append_assoc, List.cons_append] at same
  obtain ⟨rfl, behind⟩ := left _ _ (stops_blank _) (stops_blank _) same
  have blank (rest : List Char) : Json.Stops (· != ' ') (' ' :: rest) := by
    rintro c ⟨⟩
    rfl
  obtain ⟨signs, rest⟩ := Json.run_inj (sign_spaceless found) (sign_spaceless found')
    (blank _) (blank _) (List.cons.inj behind).2
  obtain ⟨rfl, ends⟩ := right (List.cons.inj rest).2
  rw [String.toList_inj.mp signs] at found
  exact ⟨by rw [sign_inj found found'], ends⟩

/-- The text of an operand determines the formula, and where the text ends. -/
theorem operand_inj (proper : e.Proper) (proper' : e'.Proper) (stops : Json.Stops isLeafChar k)
    (stops' : Json.Stops isLeafChar k') (same : e.operand ++ k = e'.operand ++ k') :
    e = e' ∧ k = k' := by
  induction e generalizing e' k k' with
  | leaf t =>
    cases e' with
    | leaf t' =>
      obtain ⟨texts, ends⟩ := Json.run_inj proper.2 proper'.2 stops stops' same
      exact ⟨by rw [String.toList_inj.mp texts], ends⟩
    | joined => exact absurd same (leaf_apart proper rfl)
    | negated => exact absurd same (leaf_apart proper rfl)
  | joined op a b iha ihb =>
    cases e' with
    | leaf => exact absurd same.symm (leaf_apart proper' rfl)
    | joined op' a' b' =>
      obtain ⟨signed, first, second⟩ := proper
      obtain ⟨signed', first', second'⟩ := proper'
      simp only [operand, List.cons_append, List.append_assoc, List.nil_append] at same
      obtain ⟨formulas, ends⟩ := between_inj (fun _ _ => iha first first')
        (ihb second second' (stops_close k) (stops_close k')) signed signed' (List.cons.inj same).2
      exact ⟨formulas, (List.cons.inj ends).2⟩
    | negated => cases (List.cons.inj same).1
  | negated a ih =>
    cases e' with
    | leaf => exact absurd same.symm (leaf_apart proper' rfl)
    | joined => cases (List.cons.inj same).1
    | negated a' =>
      have inner : a'.Proper := proper'
      obtain ⟨rfl, ends⟩ := ih proper inner stops stops' (List.cons.inj same).2
      exact ⟨rfl, ends⟩

/-- A whole text ends with its last operand, so that a formula of two operands is no operand. -/
theorem between_apart {op : String} {a b : Formula} (proper : (Formula.joined op a b).Proper)
    (proper' : e'.Proper) : between op a.operand b.operand ≠ e'.operand := by
  intro same
  have whole : a.operand ++ ' ' :: (((sign? op).getD "").toList ++ ' ' :: b.operand) =
      e'.operand ++ [] := by simpa [between] using same
  obtain ⟨_, ends⟩ := operand_inj proper.2.1 proper' (stops_blank _) (by simp [Json.Stops]) whole
  cases ends

theorem text_inj (proper : e.Proper) (proper' : e'.Proper) (same : e.text = e'.text) : e = e' := by
  have none : Json.Stops isLeafChar [] := by simp [Json.Stops]
  have inj {a a' : Formula} (first : a.Proper) (first' : a'.Proper) :=
    @operand_inj a a' [] [] first first' none none
  cases e with
  | joined op a b =>
    cases e' with
    | joined op' a' b' =>
      obtain ⟨signed, first, second⟩ := proper
      obtain ⟨signed', first', second'⟩ := proper'
      have whole : between op a.operand b.operand ++ [] =
          between op' a'.operand b'.operand ++ [] := by simpa [text] using same
      exact (between_inj (fun _ _ => operand_inj first first') (inj second second') signed signed'
        whole).1
    | leaf | negated => exact absurd same (between_apart proper proper')
  | leaf | negated =>
    cases e' with
    | joined => exact absurd same.symm (between_apart proper' proper)
    | leaf | negated => exact (inj proper proper' (by simpa [text] using same)).1

end Reading

end Formula

/-! ## Items -/

namespace Item

/-- `x.Reads e`: the item `x` is built as the formula `e` says, of operators and comparisons of two
operands and negations over leaves that no instruction made and whose texts are plain. -/
inductive Reads : Item → Formula → Prop where
  | leaf {ty : Ty} {annots : List String} {literal : Option Literal} {ops : List Item} :
      Formula.Plain (Item.node ty annots "" literal ops).text →
      Reads (.node ty annots "" literal ops) (.leaf (Item.node ty annots "" literal ops).text)
  | operator {ty : Ty} {annots : List String} {p : String} {literal : Option Literal} {x y : Item}
      {a b : Formula} : (operatorSign? p).isSome → Reads x a → Reads y b →
      Reads (.node ty annots p literal [x, y]) (.joined p a b)
  | comparison {ty ty' : Ty} {annots annots' : List String} {p : String}
      {literal literal' : Option Literal} {x y : Item} {a b : Formula} :
      (comparisonSign? p).isSome → Reads x a → Reads y b →
      Reads (.node ty annots p literal [.node ty' annots' "COMPARE" literal' [x, y]]) (.joined p a b)
  | negation {ty : Ty} {annots : List String} {literal : Option Literal} {x : Item} {a : Formula} :
      Reads x a → Reads (.node ty annots "NOT" literal [x]) (.negated a)

section Reads

variable {x y : Item} {e f : Formula} {ty : Ty} {annots : List String} {p : String}
  {literal : Option Literal} {ops : List Item}

theorem comparison_apart (compares : (comparisonSign? p).isSome) : operatorSign? p = none := by
  obtain ⟨s, found⟩ := Option.isSome_iff_exists.mp compares
  obtain ⟨before, after, table, _⟩ := List.lookup_eq_some_iff.mp found
  have all : ∀ entry ∈ [("EQ", "=="), ("NEQ", "<>"), ("LT", "<"), ("GT", ">"), ("LE", "<="),
    ("GE", ">=")], operatorSign? entry.1 = none := by decide
  exact all (p, s) (by simp [table])

theorem named_of_sign (signed : (Formula.sign? p).isSome) : (p == "") = false := by
  apply beq_false_of_ne
  rintro rfl
  exact absurd signed (by decide)

theorem Reads.proper (reads : x.Reads e) : e.Proper := by
  induction reads with
  | leaf plain => exact plain
  | operator operates _ _ first second =>
    exact ⟨by simp [Formula.sign?, operates], first, second⟩
  | comparison compares _ _ first second =>
    exact ⟨by simp [Formula.sign?, comparison_apart compares, compares], first, second⟩
  | negation _ inner => exact inner

theorem resultText_operator {sign : String} (found : operatorSign? p = some sign) (a b : Rendered) :
    (resultText p [a, b]).toList = Formula.between p a.operand.toList b.operand.toList := by
  simp [resultText, found, Formula.between, Formula.sign?]

theorem resultText_comparison {sign left right : String} (found : comparisonSign? p = some sign)
    {c : Rendered} (sides : c.sides = some (left, right)) :
    (resultText p [c]).toList = Formula.between p left.toList right.toList := by
  have other := comparison_apart (p := p) (by simp [found])
  simp [resultText, found, other, sides, Formula.between, Formula.sign?]

/-- Where a sign stands between operands the text is parenthesised as an operand. -/
theorem operandText_joined {text : String} {left right : List Char}
    (signed : (Formula.sign? p).isSome) (whole : text.toList = Formula.between p left right) :
    (operandText p text).toList = '(' :: (Formula.between p left right ++ [')']) := by
  have blank : ' ' ∈ Formula.between p left right := by simp [Formula.between]
  unfold operandText
  cases operates : operatorSign? p with
  | some sign => simp [whole]
  | none =>
    have compares : (comparisonSign? p).isSome := by simpa [Formula.sign?, operates] using signed
    simp [compares, blank, whole]

theorem Reads.rendered (reads : x.Reads e) :
    x.rendered.text.toList = e.text ∧ x.rendered.operand.toList = e.operand := by
  induction reads with
  | leaf plain => exact ⟨rfl, rfl⟩
  | @operator _ _ p _ x y a b operates _ _ first second =>
    obtain ⟨sign, found⟩ := Option.isSome_iff_exists.mp operates
    have signed : (Formula.sign? p).isSome := by simp [Formula.sign?, found]
    have whole := resultText_operator found x.rendered y.rendered
    rw [first.2, second.2] at whole
    simp only [Item.rendered, renderedAll, Rendered.ofNode, named_of_sign signed]
    exact ⟨whole, operandText_joined signed whole⟩
  | @comparison ty ty' annots annots' p literal literal' x y a b compares _ _ first second =>
    obtain ⟨sign, found⟩ := Option.isSome_iff_exists.mp compares
    have signed : (Formula.sign? p).isSome := by
      simp [Formula.sign?, comparison_apart compares, found]
    have whole := resultText_comparison found
      (c := (Item.node ty' annots' "COMPARE" literal' [x, y]).rendered) rfl
    rw [first.2, second.2] at whole
    simp only [Item.rendered, renderedAll, Rendered.ofNode, named_of_sign signed] at whole ⊢
    exact ⟨whole, operandText_joined signed whole⟩
  | @negation _ _ _ x a _ inner =>
    have whole : (resultText "NOT" [x.rendered]).toList = '!' :: a.operand := by
      rw [← inner.2]
      exact String.toList_append
    exact ⟨whole, whole⟩

/-- Main statement: items that are built of operators have one text exactly if they are one tree of
operators over the same leaf texts. -/
theorem expressions_readable (reads : x.Reads e) (reads' : y.Reads f) : x.text = y.text ↔ e = f := by
  have own : x.text.toList = e.text := reads.rendered.1
  have other : y.text.toList = f.text := reads'.rendered.1
  constructor
  · intro same
    refine Formula.text_inj reads.proper reads'.proper ?_
    rw [← own, ← other, same]
  · rintro rfl
    exact String.toList_inj.mp (own.trans other.symm)

end Reads

def amount (name : String) : Item := .placeholder (.app "nat" []) [name]

def exceeding (x y : Item) : Item :=
  .derived (.app "bool" []) "GT" [.derived (.app "int" []) "COMPARE" [x, y]]

def sum (x y : Item) : Item := .derived (.app "nat" []) "ADD" [x, y]

def inverse (ty : String) (x : Item) : Item := .derived (.app ty []) "NOT" [x]

theorem amount_reads {name : String} (plain : Formula.Plain (amount name).text) :
    (amount name).Reads (.leaf (amount name).text) := .leaf plain

/-- A negated guard does not print like a guard over a negation. -/
theorem negated_guard_apart :
    (inverse "bool" (exceeding (sum (amount "a") (amount "b")) (amount "c"))).Reads
      (.negated (.joined "GT" (.joined "ADD" (.leaf "a:nat") (.leaf "b:nat")) (.leaf "c:nat"))) ∧
    (exceeding (inverse "int" (sum (amount "a") (amount "b"))) (amount "c")).Reads
      (.joined "GT" (.negated (.joined "ADD" (.leaf "a:nat") (.leaf "b:nat"))) (.leaf "c:nat")) ∧
    (inverse "bool" (exceeding (sum (amount "a") (amount "b")) (amount "c"))).text ≠
      (exceeding (inverse "int" (sum (amount "a") (amount "b"))) (amount "c")).text := by
  have a : (amount "a").Reads (.leaf "a:nat") := amount_reads (by unfold Formula.Plain; decide)
  have b : (amount "b").Reads (.leaf "b:nat") := amount_reads (by unfold Formula.Plain; decide)
  have c : (amount "c").Reads (.leaf "c:nat") := amount_reads (by unfold Formula.Plain; decide)
  have added : (sum (amount "a") (amount "b")).Reads _ := .operator (by decide) a b
  have outer : (inverse "bool" (exceeding (sum (amount "a") (amount "b")) (amount "c"))).Reads _ :=
    .negation (.comparison (by decide) added c)
  have inner : (exceeding (inverse "int" (sum (amount "a") (amount "b"))) (amount "c")).Reads _ :=
    .comparison (by decide) (.negation added) c
  exact ⟨outer, inner, mt (expressions_readable outer inner).mp (by decide)⟩

end Item
end StackFlow
