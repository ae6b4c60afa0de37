import DeskCheck.Number.Shortest
import Mathlib.Order.Nat

/-!
# Equality of numbers

Two numbers are equal if they stand at one place of the number line.  So a not-a-number equals
nothing, and equal numbers are the same up to the sign of zero (`eq_or_zero_of_equals`), which is
not written (`toText_eq_of_equals`).
-/

namespace DeskCheck.Number

open Magnitude (limit_pos Representable)

/-- A place on the number line has one sign and magnitude, unless it is zero. -/
theorem signed_eq_iff {s t : Bool} {x y : Nat} :
    signed s x = signed t y ↔ x = y ∧ (s = t ∨ x = 0) := by
  cases s <;> cases t <;> simp [signed] <;> omega

/-- Equal numbers stand at one place of the number line. -/
theorem equals_iff {m n : Number} :
    m.equals n = true ↔ ∃ x, m.toInt? = some x ∧ n.toInt? = some x := by
  rw [equals, compare?]
  constructor
  · intro h
    split at h
    · next x y hm hn =>
      obtain rfl : x = y := by simpa using h
      exact ⟨x, hm, hn⟩
    · simp at h
  · rintro ⟨x, hm, hn⟩
    simp [hm, hn]

/-- A magnitude equals itself, and zero equals zero whatever the signs are. -/
theorem equals_finite {s t : Bool} {units : Nat} (h : Representable units) :
    (finite s units h).equals (finite t units h) = true ↔ s = t ∨ units = 0 := by
  rw [equals_iff]
  constructor
  · rintro ⟨x, hs, ht⟩
    exact (signed_eq_iff.mp (Option.some.inj (hs.trans ht.symm))).2
  · intro heq
    exact ⟨_, rfl, congrArg some (signed_eq_iff.mpr ⟨rfl, heq.imp Eq.symm id⟩)⟩

/-- Equal numbers are the same, up to the sign of zero. -/
theorem eq_or_zero_of_equals {m n : Number} (h : m.equals n = true) :
    m = n ∨ ∃ s t, m = zero s ∧ n = zero t := by
  obtain ⟨x, hm, hn⟩ := equals_iff.mp h
  cases m with
  | nan => cases hm
  | infinite s =>
    obtain rfl := Option.some.inj hm
    cases n with
    | nan => cases hn
    | infinite t =>
      rcases (signed_eq_iff.mp (Option.some.inj hn)).2 with rfl | hzero
      · exact .inl rfl
      · exact absurd hzero limit_pos.ne'
    | finite t units hunits =>
      -- an infinity stands past every finite number
      exact absurd (signed_eq_iff.mp (Option.some.inj hn)).1 hunits.1.ne
  | finite s units hunits =>
    obtain rfl := Option.some.inj hm
    cases n with
    | nan => cases hn
    | infinite t => exact absurd (signed_eq_iff.mp (Option.some.inj hn)).1 hunits.1.ne'
    | finite t units' hunits' =>
      obtain ⟨rfl, rfl | rfl⟩ := signed_eq_iff.mp (Option.some.inj hn)
      · exact .inl rfl
      · exact .inr ⟨s, t, rfl, rfl⟩

/-- Equal numbers are written alike. -/
theorem toText_eq_of_equals {m n : Number} (h : m.equals n = true) : m.toText = n.toText := by
  rcases eq_or_zero_of_equals h with rfl | ⟨s, t, rfl, rfl⟩
  · rfl
  · simp [toText, toChars, zero]

end DeskCheck.Number
