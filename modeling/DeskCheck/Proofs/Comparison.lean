import DeskCheck.Expr.Eval
import DeskCheck.Proofs.Equality
import Mathlib.Logic.Basic

/-!
# The comparison operators together

Equality and order are computed apart.  Equality (`Value.looseEq`) looks at the kinds first and
goes into sequences; order (`Value.looseCompare?`) takes two texts by their code points and all else
by number.  Main result (`comparisons_cohere`): the six operators agree all the same.

* On all values equality is symmetric and each ordering is the mirror of its opposite; and a value
  equals itself unless there is a not-a-number somewhere in it.
* On two values that are `Comparable` both functions look at the same thing
  (`looseEq_iff_of_comparable`), so exactly one of less, equal and greater holds, unless the two are
  `Unordered`; then nothing holds but `!=`.

`Comparable` cannot be dropped: a sequence of one element is neither less nor greater than the
element, and yet not equal to it.
-/

namespace DeskCheck

/-! ### Order of numbers -/

namespace Number

variable {m n : Number}

theorem toInt?_eq_none_iff : n.toInt? = none ↔ n = .nan := by
  cases n <;> simp [toInt?]

theorem compare?_eq_none_iff : m.compare? n = none ↔ m = .nan ∨ n = .nan := by
  rw [← toInt?_eq_none_iff, ← toInt?_eq_none_iff, compare?]
  rcases m.toInt? with - | x <;> rcases n.toInt? with - | y <;> simp

theorem compare?_swap (m n : Number) : n.compare? m = (m.compare? n).map Ordering.swap := by
  rw [compare?, compare?]
  rcases m.toInt? with - | x <;> rcases n.toInt? with - | y
  · rfl
  · rfl
  · rfl
  · show some (compare y x) = some (compare x y).swap
    rw [Std.OrientedOrd.eq_swap]

theorem equals_iff_compare? : m.equals n = true ↔ m.compare? n = some .eq := by
  rw [equals, beq_iff_eq]

theorem equals_comm (m n : Number) : m.equals n = n.equals m := by
  rw [Bool.eq_iff_iff, equals_iff, equals_iff]
  simp only [and_comm]

theorem equals_self_iff : n.equals n = true ↔ n ≠ .nan := by
  rw [equals_iff, ne_eq, ← toInt?_eq_none_iff, ← ne_eq, Option.ne_none_iff_exists']
  simp only [and_self]

end Number

/-! ### Equality of values -/

namespace Value

theorem looseEqAll_comm {as bs : List Value} (h : ∀ a ∈ as, ∀ b, looseEq a b = looseEq b a) :
    looseEqAll as bs = looseEqAll bs as := by
  induction as generalizing bs with
  | nil => cases bs <;> rfl
  | cons a as ih =>
    obtain ⟨ha, has⟩ := List.forall_mem_cons.mp h
    cases bs with
    | nil => rfl
    | cons b bs => rw [looseEqAll, looseEqAll, ha b, ih has]

theorem looseEq_comm (a b : Value) : looseEq a b = looseEq b a := by
  -- scalars of two kinds are compared as numbers or not at all; only sequences need the induction
  induction a generalizing b with
  | number m => cases b <;> simp only [looseEq, Number.equals_comm]
  | text s => cases b <;> simp only [looseEq, Number.equals_comm, Bool.beq_comm]
  | boolean s => cases b <;> simp only [looseEq, Number.equals_comm, Bool.beq_comm]
  | sequence as ih =>
    cases b with
    | sequence bs =>
      rw [looseEq, looseEq]
      exact looseEqAll_comm ih
    | _ => simp only [looseEq]

/-- A value with a not-a-number in it, at whatever depth.  A text that stands for no number is none. -/
inductive HasNaN : Value → Prop
  | number : HasNaN (.number .nan)
  | element {v : Value} {items : List Value} : v ∈ items → HasNaN v → HasNaN (.sequence items)

theorem hasNaN_number_iff {n : Number} : HasNaN (.number n) ↔ n = .nan := by
  constructor
  · rintro ⟨⟩
    rfl
  · rintro rfl
    exact .number

theorem hasNaN_sequence_iff {items : List Value} :
    HasNaN (.sequence items) ↔ ∃ v ∈ items, v.HasNaN := by
  constructor
  · rintro (_ | ⟨hmem, hv⟩)
    exact ⟨_, hmem, hv⟩
  · rintro ⟨v, hmem, hv⟩
    exact .element hmem hv

theorem looseEqAll_self_iff {items : List Value} :
    looseEqAll items items = true ↔ ∀ v ∈ items, looseEq v v = true := by
  induction items with
  | nil => simp [looseEqAll]
  | cons v rest ih => simp [looseEqAll, ih]

theorem looseEq_self_iff (v : Value) : looseEq v v = true ↔ ¬ v.HasNaN := by
  induction v with
  | number n => rw [looseEq, Number.equals_self_iff, hasNaN_number_iff]
  | text s => exact iff_of_true (by simp [looseEq]) nofun
  | boolean b => exact iff_of_true (by simp [looseEq]) nofun
  | sequence items ih =>
    rw [looseEq, looseEqAll_self_iff, hasNaN_sequence_iff]
    simp only [not_exists, not_and]
    exact forall₂_congr ih

/-! ### Order of values -/

/-- Two texts, the one pair of kinds that is ordered without a look at numbers. -/
def AreTexts (a b : Value) : Prop := ∃ s t, a = .text s ∧ b = .text t

theorem looseCompare?_of_not_areTexts {a b : Value} (h : ¬ AreTexts a b) :
    a.looseCompare? b = a.toNumber.compare? b.toNumber := by
  rw [looseCompare?]
  rintro s t rfl rfl
  exact h ⟨s, t, rfl, rfl⟩

theorem areTexts_comm {a b : Value} : AreTexts a b ↔ AreTexts b a := by
  constructor <;> rintro ⟨s, t, rfl, rfl⟩ <;> exact ⟨t, s, rfl, rfl⟩

theorem looseCompare?_swap (a b : Value) :
    b.looseCompare? a = (a.looseCompare? b).map Ordering.swap := by
  by_cases htexts : AreTexts a b
  · obtain ⟨s, t, rfl, rfl⟩ := htexts
    show some (compare t s) = some (compare s t).swap
    rw [Std.OrientedOrd.eq_swap]
  · rw [looseCompare?_of_not_areTexts htexts,
      looseCompare?_of_not_areTexts (mt areTexts_comm.mp htexts)]
    exact Number.compare?_swap _ _

/-- A not-a-number comes up when two values are compared as numbers. -/
def Unordered (a b : Value) : Prop :=
  ¬ AreTexts a b ∧ (a.toNumber = .nan ∨ b.toNumber = .nan)

theorem looseCompare?_eq_none_iff {a b : Value} : a.looseCompare? b = none ↔ Unordered a b := by
  by_cases htexts : AreTexts a b
  · refine iff_of_false ?_ fun hunordered => hunordered.1 htexts
    obtain ⟨s, t, rfl, rfl⟩ := htexts
    exact Option.some_ne_none _
  · rw [looseCompare?_of_not_areTexts htexts, Number.compare?_eq_none_iff, Unordered,
      and_iff_right htexts]

/-- The pairs of kinds on which equality looks at what order looks at: a number with any scalar, two
texts, and two truth values. -/
inductive Comparable : Value → Value → Prop
  | numbers (m n : Number) : Comparable (.number m) (.number n)
  | numberText (n : Number) (s : String) : Comparable (.number n) (.text s)
  | textNumber (s : String) (n : Number) : Comparable (.text s) (.number n)
  | numberBoolean (n : Number) (b : Bool) : Comparable (.number n) (.boolean b)
  | booleanNumber (b : Bool) (n : Number) : Comparable (.boolean b) (.number n)
  | texts (s t : String) : Comparable (.text s) (.text t)
  | booleans (b c : Bool) : Comparable (.boolean b) (.boolean c)

/-- Equality of comparable values is what their order says. -/
theorem looseEq_iff_of_comparable {a b : Value} (h : Comparable a b) :
    a.looseEq b = true ↔ a.looseCompare? b = some .eq := by
  cases h with
  | texts s t =>
    rw [looseEq, looseCompare?, beq_iff_eq, Option.some.injEq, Std.LawfulEqOrd.compare_eq_iff_eq]
  | booleans b c =>
    -- the numbers of the two truth values differ, by computation
    revert b c
    decide +kernel
  | _ => exact Number.equals_iff_compare?

end Value

/-! ### The operators -/

namespace BinaryOp

open Value (Comparable Unordered HasNaN)

/-- The operator yields `true` for the two values. -/
def Holds (op : BinaryOp) (a b : Value) : Prop := op.apply a b = .boolean true

variable {a b : Value}

theorem holds_eq : eq.Holds a b ↔ a.looseEq b = true := by simp [Holds, apply]

theorem holds_ne : ne.Holds a b ↔ ¬ eq.Holds a b := by simp [Holds, apply]

/-- An ordering comparison holds if the two values have an order that it accepts. -/
theorem ordered_eq_true_iff {accept : Ordering → Bool} :
    a.ordered b accept = .boolean true ↔ ∃ o, a.looseCompare? b = some o ∧ accept o = true := by
  rw [Value.ordered, Value.boolean.injEq, Option.any_eq_true]

theorem holds_lt : lt.Holds a b ↔ a.looseCompare? b = some .lt := by
  simp [Holds, apply, ordered_eq_true_iff]

theorem holds_gt : gt.Holds a b ↔ a.looseCompare? b = some .gt := by
  simp [Holds, apply, ordered_eq_true_iff]

theorem holds_le : le.Holds a b ↔ ∃ o, a.looseCompare? b = some o ∧ o ≠ .gt := by
  simp [Holds, apply, ordered_eq_true_iff]

theorem holds_ge : ge.Holds a b ↔ ∃ o, a.looseCompare? b = some o ∧ o ≠ .lt := by
  simp [Holds, apply, ordered_eq_true_iff]

/-! #### Mirrors -/

theorem holds_eq_comm : eq.Holds a b ↔ eq.Holds b a := by
  rw [holds_eq, holds_eq, Value.looseEq_comm]

/-- With its operands exchanged, an ordering comparison accepts the opposite orders. -/
theorem ordered_comm (accept : Ordering → Bool) :
    b.ordered a accept = a.ordered b fun o => accept o.swap := by
  rw [Value.ordered, Value.ordered, Value.looseCompare?_swap a b, Option.any_map]

theorem holds_lt_iff_gt : lt.Holds a b ↔ gt.Holds b a := by
  have hmirror : gt.apply b a = lt.apply a b := by
    show b.ordered a _ = a.ordered b _
    rw [ordered_comm]
    congr 1
    funext o
    cases o <;> rfl
  rw [Holds, Holds, hmirror]

theorem holds_le_iff_ge : le.Holds a b ↔ ge.Holds b a := by
  have hmirror : ge.apply b a = le.apply a b := by
    show b.ordered a _ = a.ordered b _
    rw [ordered_comm]
    congr 1
    funext o
    cases o <;> rfl
  rw [Holds, Holds, hmirror]

theorem not_holds_lt_and_gt : ¬ (lt.Holds a b ∧ gt.Holds a b) := by
  rw [holds_lt, holds_gt]
  rintro ⟨hlt, hgt⟩
  cases hlt.symm.trans hgt

/-! #### Equality and order -/

/-- One of the three holds, and no other. -/
def ExactlyOne (p q r : Prop) : Prop := (p ∧ ¬ q ∧ ¬ r) ∨ (¬ p ∧ q ∧ ¬ r) ∨ (¬ p ∧ ¬ q ∧ r)

theorem holds_eq_iff_of_comparable (h : Comparable a b) :
    eq.Holds a b ↔ a.looseCompare? b = some .eq := by
  rw [holds_eq, Value.looseEq_iff_of_comparable h]

theorem holds_eq_iff_le_and_ge (h : Comparable a b) :
    eq.Holds a b ↔ le.Holds a b ∧ ge.Holds a b := by
  rw [holds_eq_iff_of_comparable h, holds_le, holds_ge]
  rcases a.looseCompare? b with - | o
  · simp
  · cases o <;> simp

theorem exactlyOne_of_comparable (h : Comparable a b) (hordered : ¬ Unordered a b) :
    ExactlyOne (lt.Holds a b) (eq.Holds a b) (gt.Holds a b) := by
  rw [holds_eq_iff_of_comparable h, holds_lt, holds_gt]
  obtain ⟨o, ho⟩ := Option.ne_none_iff_exists'.mp (mt Value.looseCompare?_eq_none_iff.mp hordered)
  rw [ho]
  -- each of the three orders makes one of the three operators hold
  cases o
  · exact .inl (by simp)
  · exact .inr (.inl (by simp))
  · exact .inr (.inr (by simp))

/-- Without an order none of the five operators that ask for one holds. -/
theorem not_holds_of_unordered (h : Comparable a b) (hunordered : Unordered a b) :
    ∀ op ∈ [lt, le, gt, ge, eq], ¬ op.Holds a b := by
  have hnone := Value.looseCompare?_eq_none_iff.mpr hunordered
  simp [holds_eq_iff_of_comparable h, holds_lt, holds_le, holds_gt, holds_ge, hnone]

/-- A comparison has a truth value as its result. -/
theorem exists_apply_eq_boolean (a b : Value) :
    ∀ op ∈ [eq, ne, lt, le, gt, ge], ∃ c, op.apply a b = .boolean c := by
  simp only [List.forall_mem_cons]
  exact ⟨⟨_, rfl⟩, ⟨_, rfl⟩, ⟨_, rfl⟩, ⟨_, rfl⟩, ⟨_, rfl⟩, ⟨_, rfl⟩, List.forall_mem_nil _⟩

/-- **The comparison operators cohere.**  Each yields a truth value.  On all values equality is
symmetric, an ordering is the mirror of its opposite, less and greater exclude each other, `!=` is
the negation of equality, and a value equals itself exactly if no not-a-number is in it.  On
comparable values equality is less-or-equal and greater-or-equal, and exactly one of less, equal and
greater holds; unless the values are unordered, when none of the five holds. -/
theorem comparisons_cohere (a b : Value) :
    (∀ op ∈ [eq, ne, lt, le, gt, ge], ∃ c, op.apply a b = .boolean c) ∧
    (eq.Holds a b ↔ eq.Holds b a) ∧ (lt.Holds a b ↔ gt.Holds b a) ∧
    (le.Holds a b ↔ ge.Holds b a) ∧ ¬ (lt.Holds a b ∧ gt.Holds a b) ∧
    (ne.Holds a b ↔ ¬ eq.Holds a b) ∧ (eq.Holds a a ↔ ¬ a.HasNaN) ∧
    (Comparable a b →
      (eq.Holds a b ↔ le.Holds a b ∧ ge.Holds a b) ∧
      (¬ Unordered a b → ExactlyOne (lt.Holds a b) (eq.Holds a b) (gt.Holds a b)) ∧
      (Unordered a b → ∀ op ∈ [lt, le, gt, ge, eq], ¬ op.Holds a b)) := by
  refine ⟨exists_apply_eq_boolean a b, holds_eq_comm, holds_lt_iff_gt, holds_le_iff_ge,
    not_holds_lt_and_gt, holds_ne, ?_, fun h => ?_⟩
  · rw [holds_eq, Value.looseEq_self_iff]
  · exact ⟨holds_eq_iff_le_and_ge h, exactlyOne_of_comparable h, not_holds_of_unordered h⟩

/-- A number and two texts, one that stands for it and one that stands for none. -/
theorem comparisons_cohere_ten :
    (Comparable (.number (.ofNat 10)) (.text " 1e1 ") ∧
      ¬ Unordered (.number (.ofNat 10)) (.text " 1e1 ") ∧
      ExactlyOne (lt.Holds (.number (.ofNat 10)) (.text " 1e1 "))
        (eq.Holds (.number (.ofNat 10)) (.text " 1e1 "))
        (gt.Holds (.number (.ofNat 10)) (.text " 1e1 "))) ∧
    Comparable (.text "ten") (.number (.ofNat 10)) ∧
      Unordered (.text "ten") (.number (.ofNat 10)) ∧
      ∀ op ∈ [lt, le, gt, ge, eq], ¬ op.Holds (.text "ten") (.number (.ofNat 10)) := by
  have hordered : ¬ Unordered (.number (.ofNat 10)) (.text " 1e1 ") := by
    rw [← Value.looseCompare?_eq_none_iff]
    decide +kernel
  have hunordered : Unordered (.text "ten") (.number (.ofNat 10)) := by
    rw [← Value.looseCompare?_eq_none_iff]
    decide +kernel
  obtain ⟨-, -, -, -, -, -, -, hten⟩ :=
    comparisons_cohere (.number (.ofNat 10)) (.text " 1e1 ")
  obtain ⟨-, -, -, -, -, -, -, hword⟩ := comparisons_cohere (.text "ten") (.number (.ofNat 10))
  exact ⟨⟨.numberText _ _, hordered, (hten (.numberText _ _)).2.1 hordered⟩,
    .textNumber _ _, hunordered, (hword (.textNumber _ _)).2.2 hunordered⟩

/-- A sequence and its one element: not below, not above, and not equal. -/
example : le.Holds (.sequence [.missing]) .missing ∧ ge.Holds (.sequence [.missing]) .missing ∧
    ¬ eq.Holds (.sequence [.missing]) .missing := ⟨rfl, rfl, nofun⟩

end BinaryOp
end DeskCheck
