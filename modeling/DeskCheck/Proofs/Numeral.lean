import DeskCheck.Number.Shortest
import Mathlib.Data.List.TakeWhile

/-!
# Numbers as numerals

The text of a number without a sign is a `Numeral`: a row of digits, perhaps with a point behind the
first ones.  A numeral is read as the decimal that it writes, and the text of a number is read back
as this number (`numeral_magnitudeChars`).
-/

namespace DeskCheck.Number

open scoped Magnitude

/-- `Numeral text digits exponent`: the text is digits with at most one point, at least one of them
in front of it, and writes `digits * 10 ^ exponent`. -/
inductive Numeral : List Char → Nat → Int → Prop
  | whole {ds : List Char} : ds ≠ [] → (∀ c ∈ ds, c.isDigit = true) →
      Numeral ds (Nat.ofDigitChars 10 ds 0) 0
  | pointed {ds fraction : List Char} : ds ≠ [] → (∀ c ∈ ds, c.isDigit = true) →
      (∀ c ∈ fraction, c.isDigit = true) →
      Numeral (ds ++ '.' :: fraction) (Nat.ofDigitChars 10 (ds ++ fraction) 0) (-fraction.length)

/-! ### Reading -/

theorem readSign_digit {c : Char} (h : c.isDigit = true) (rest : List Char) :
    readSign (c :: rest) = (false, c :: rest) := by
  unfold readSign
  split
  · next heq => cases heq; cases h
  · next heq => cases heq; cases h
  · rfl

theorem readSign_digits {ds : List Char} (hne : ds ≠ []) (h : ∀ c ∈ ds, c.isDigit = true)
    (rest : List Char) : readSign (ds ++ rest) = (false, ds ++ rest) := by
  cases ds with
  | nil => exact absurd rfl hne
  | cons c ds => exact readSign_digit (h c List.mem_cons_self) (ds ++ rest)

theorem Numeral.read {text : List Char} {digits : Nat} {exponent : Int}
    (h : Numeral text digits exponent) : read? text = some (ofDecimal false digits exponent) := by
  cases h with
  | whole hne hds =>
    have hsign := readSign_digits hne hds []
    rw [List.append_nil] at hsign
    simp [read?, hsign, List.takeWhile_eq_self_iff.mpr hds, List.dropWhile_eq_nil_iff.mpr hds,
      readFraction, readExponent?, hne, valueOfDigits_eq]
  | @pointed ds fraction hne hds hfraction =>
    have hpoint : Char.isDigit '.' = false := rfl
    simp [read?, readSign_digits hne hds ('.' :: fraction), List.takeWhile_append_of_pos hds,
      List.dropWhile_append_of_pos hds, hpoint, readFraction,
      List.takeWhile_eq_self_iff.mpr hfraction, List.dropWhile_eq_nil_iff.mpr hfraction,
      readExponent?, hne, valueOfDigits_eq]

/-! ### Writing -/

theorem numeral_toDigits (n : Nat) : Numeral (Nat.toDigits 10 n) n 0 := by
  have h := Numeral.whole (Nat.toDigits_ne_nil (n := n) (b := 10))
    fun c hc => Nat.isDigit_of_mem_toDigits (by decide) (by decide) hc
  rwa [Nat.ofDigitChars_ten_toDigits] at h

theorem numeral_positional_ofNat (digits exponent : Nat) :
    Numeral (positional digits (.ofNat exponent)) (digits * 10 ^ exponent) 0 := by
  have hvalue : Nat.ofDigitChars 10 (positional digits (.ofNat exponent)) 0 =
      digits * 10 ^ exponent := by
    rw [positional, Nat.ofDigitChars_append, Nat.ofDigitChars_ten_toDigits,
      Nat.ofDigitChars_replicate_zero, Nat.mul_comm]
  rw [← hvalue]
  refine .whole ?_ fun c hc => ?_
  · simp [positional, Nat.toDigits_ne_nil]
  · rcases List.mem_append.mp hc with hc | hc
    · exact Nat.isDigit_of_mem_toDigits (by decide) (by decide) hc
    · rw [List.eq_of_mem_replicate hc]
      rfl

/-- A row of digits with a point in front of the last `k` of them. -/
theorem numeral_split {ds : List Char} (h : ∀ c ∈ ds, c.isDigit = true) {k : Nat}
    (hk : k < ds.length) :
    Numeral (ds.take (ds.length - k) ++ '.' :: ds.drop (ds.length - k))
      (Nat.ofDigitChars 10 ds 0) (-k) := by
  have hne : ds.take (ds.length - k) ≠ [] := by
    intro hnil
    have hlength := congrArg List.length hnil
    rw [List.length_take, List.length_nil] at hlength
    omega
  have hlength : (ds.drop (ds.length - k)).length = k := by
    rw [List.length_drop, Nat.sub_sub_self (Nat.le_of_lt hk)]
  have hfraction : ∀ c ∈ ds.drop (ds.length - k), c.isDigit = true :=
    fun c hc => h c (List.mem_of_mem_drop hc)
  have hnumeral := Numeral.pointed hne (fun c hc => h c (List.mem_of_mem_take hc)) hfraction
  rwa [List.take_append_drop, hlength] at hnumeral

theorem numeral_positional_negSucc (digits below : Nat) :
    Numeral (positional digits (.negSucc below)) digits (.negSucc below) := by
  rw [positional]
  generalize hpadded : List.replicate (below + 2 - (Nat.toDigits 10 digits).length) '0' ++
    Nat.toDigits 10 digits = padded
  have hlength : below + 1 < padded.length := by
    rw [← hpadded, List.length_append, List.length_replicate]
    omega
  have hdigit : ∀ c ∈ padded, c.isDigit = true := by
    intro c hc
    rcases List.mem_append.mp (hpadded ▸ hc) with hc | hc
    · rw [List.eq_of_mem_replicate hc]
      rfl
    · exact Nat.isDigit_of_mem_toDigits (by decide) (by decide) hc
  have hvalue : Nat.ofDigitChars 10 padded 0 = digits := by
    rw [← hpadded, Nat.ofDigitChars_append, Nat.ofDigitChars_replicate_zero, Nat.mul_zero,
      Nat.ofDigitChars_ten_toDigits]
  have hnumeral := numeral_split hdigit hlength
  rwa [hvalue] at hnumeral

/-- Zeros written behind the digits are read like an exponent, unless the exponent is read as an
infinity. -/
theorem ofDecimal_mul_pow {digits exponent units : Nat} {h : Magnitude.Representable units}
    (hfinite : ofDecimal false digits (.ofNat exponent) = .finite false units h) :
    ofDecimal false (digits * 10 ^ exponent) 0 = .finite false units h := by
  by_cases hzero : digits = 0
  · subst hzero
    rw [ofDecimal_zero] at hfinite
    rw [Nat.zero_mul, ofDecimal_zero, hfinite]
  · have hpow : digits * 10 ^ exponent ≠ 0 :=
      Nat.mul_ne_zero hzero (Nat.ne_of_gt (Nat.pow_pos (by decide)))
    have hbound : ¬ 400 < exponent := by
      intro hlt
      simp [ofDecimal, hzero, hlt] at hfinite
    simp only [ofDecimal, if_neg hzero, if_neg hbound] at hfinite
    simp [ofDecimal, hpow, hfinite]

/-- **The text of a number without a sign is a numeral that is read back.** -/
theorem numeral_magnitudeChars (units : Nat) (h : Magnitude.Representable units) :
    ∃ digits exponent, Numeral (magnitudeChars units h) digits exponent ∧
      ofDecimal false digits exponent = .finite false units h := by
  rw [magnitudeChars]
  split
  · next hwhole => exact ⟨_, 0, numeral_toDigits _, read_whole h hwhole.1⟩
  · have hread := read_shortest h
    rcases hshortest : shortest units h with ⟨digits, exponent⟩
    rw [hshortest] at hread
    cases exponent with
    | ofNat exponent =>
      exact ⟨_, 0, numeral_positional_ofNat digits exponent, ofDecimal_mul_pow hread⟩
    | negSucc below => exact ⟨_, _, numeral_positional_negSucc digits below, hread⟩

end DeskCheck.Number
