import DeskCheck.Number.Decimal

/-!
# The shortest decimal of a number

A double is written with the fewest digits that read back to it.  The decimals with `k` places
form a grid; the grids are tried from coarse to fine, and on each the two neighbours of the exact
value.  The first grid on which a neighbour reads back gives the digits; of two neighbours that
do, the nearer is taken, and of two equally near ones the upper.

`read_shortest` says that the digits read back, and `read_whole` says so for the whole numbers that
are written digit for digit.  The text has no exponent: zeros fill up to the point on either side of
it.
-/

namespace DeskCheck.Number

open Magnitude (places one Representable)
open scoped Magnitude

/-! ### Digits -/

/-- The neighbour of a magnitude on the grid of the multiples of `10 ^ exponent` that reads back
to it. -/
def neighbour? (units : Nat) (h : Representable units) (exponent : Int) : Option Nat :=
  let num := units * 10 ^ (-exponent).toNat
  let den := one * 10 ^ exponent.toNat
  let below := num / den
  let belowReads := ofDecimal false below exponent = .finite false units h
  let aboveReads := ofDecimal false (below + 1) exponent = .finite false units h
  if belowReads ∧ (¬ aboveReads ∨ 2 * (num % den) < den) then some below
  else if aboveReads then some (below + 1)
  else none

/-- An exponent of ten that is not below the magnitude's own, and at most two above it. -/
def topExponent (units : Nat) : Int :=
  ((units.log2 : Int) + 1 - places) * 30103 / 100000 + 1

/-- The digits on the first of `tries` grids, from `10 ^ exponent` down, that has a neighbour
which reads back; behind the last grid, all digits of the exact value. -/
def digitsFrom (units : Nat) (h : Representable units) : (tries : Nat) → (exponent : Int) → Nat × Int
  | 0, _ => (units * 5 ^ places, -places)
  | tries + 1, exponent =>
    match neighbour? units h exponent with
    | some digits => (digits, exponent)
    | none => digitsFrom units h tries (exponent - 1)

/-- The shortest digits of a magnitude and the exponent of ten that goes with them.  Seventeen
digits always read back, so the tries are not used up. -/
def shortest (units : Nat) (h : Representable units) : Nat × Int :=
  digitsFrom units h 24 (topExponent units)

theorem read_neighbour {units : Nat} {h : Representable units} {exponent : Int} {digits : Nat}
    (hit : neighbour? units h exponent = some digits) :
    ofDecimal false digits exponent = .finite false units h := by
  unfold neighbour? at hit
  dsimp only at hit
  split at hit
  · rename_i hb; cases hit; exact hb.1
  · split at hit
    · rename_i ha; cases hit; exact ha
    · cases hit

theorem mul_five_pow_mul {m e scale : Nat} (h : scale = 2 ^ e) :
    m * 5 ^ e * scale = m * 10 ^ e := by
  rw [h, Nat.mul_assoc, ← Nat.mul_pow]

theorem two_mul_le_log2_mul_five_pow {m : Nat} (hm : m ≠ 0) (e : Nat) :
    2 * e ≤ (m * 5 ^ e).log2 := by
  rw [Nat.le_log2 (Nat.mul_ne_zero hm (Nat.ne_of_gt (Nat.pow_pos (by decide)))), Nat.pow_mul]
  exact Nat.le_trans (Nat.pow_le_pow_left (by decide) _)
    (Nat.le_mul_of_pos_left _ (Nat.pos_of_ne_zero hm))

/-- All digits of the exact value read back. -/
theorem read_exact {units : Nat} (h : Representable units) :
    ofDecimal false (units * 5 ^ places) (-places) = .finite false units h := by
  by_cases hz : units = 0
  · subst hz
    rw [Nat.zero_mul, ofDecimal_zero, zero]
  · have hlog := two_mul_le_log2_mul_five_pow hz places
    have hpow : units * 5 ^ places * one = units * 10 ^ places := mul_five_pow_mul rfl
    obtain ⟨below, hbelow⟩ : ∃ below, places = below + 1 := ⟨1073, rfl⟩
    have hexp : -(places : Int) = Int.negSucc below := by rw [hbelow]; rfl
    have hplaces : places = 1074 := rfl
    simp only [hexp, ofDecimal]
    rw [if_neg (by omega), hpow, hbelow]
    exact ofFraction_mul_right false h (Nat.pow_pos (by decide))

/-- The shortest digits read back. -/
theorem read_shortest {units : Nat} (h : Representable units) :
    ofDecimal false (shortest units h).1 (shortest units h).2 = .finite false units h := by
  suffices ∀ tries exponent, ofDecimal false (digitsFrom units h tries exponent).1
      (digitsFrom units h tries exponent).2 = .finite false units h from this _ _
  intro tries
  induction tries with
  | zero => intro _; exact read_exact h
  | succ tries ih =>
    intro exponent
    unfold digitsFrom
    split
    · rename_i hit; exact read_neighbour hit
    · exact ih _

/-! ### Text -/

/-- `digits * 10 ^ exponent` written out around a point, with at least one digit in front of it. -/
def positional (digits : Nat) : Int → List Char
  | .ofNat exponent => Nat.toDigits 10 digits ++ List.replicate exponent '0'
  | .negSucc below =>
    let ds := Nat.toDigits 10 digits
    let padded := List.replicate (below + 2 - ds.length) '0' ++ ds
    padded.take (padded.length - (below + 1)) ++ '.' :: padded.drop (padded.length - (below + 1))

/-- Whole numbers below this are written digit for digit. -/
def wholeLimit : Nat := 10 ^ (15 : Nat)

/-- The text of a magnitude: its shortest decimal, which for a whole number of at most fifteen
digits is the number itself. -/
def magnitudeChars (units : Nat) (h : Representable units) : List Char :=
  if units % one = 0 ∧ units / one < wholeLimit then Nat.toDigits 10 (units / one)
  else
    let (digits, exponent) := shortest units h
    positional digits exponent

/-- The digits of a whole number read back. -/
theorem read_whole {units : Nat} (h : Representable units) (hwhole : units % one = 0) :
    ofDecimal false (units / one) 0 = .finite false units h := by
  have hmul : units / one * one = units := Nat.div_mul_cancel (Nat.dvd_of_mod_eq_zero hwhole)
  simp only [ofDecimal, Nat.pow_zero, Nat.mul_one, hmul, ofFraction_one false h,
    Nat.not_lt_zero, if_false]
  split
  · rename_i hz
    rw [hz, Nat.zero_mul] at hmul
    subst hmul
    rfl
  · rfl

/-- The text of a number.  Both zeros are `0`. -/
def toChars : Number → List Char
  | .nan => "NaN".toList
  | .infinite negative => if negative then "-Infinity".toList else "Infinity".toList
  | .finite negative units h =>
    if negative ∧ units ≠ 0 then '-' :: magnitudeChars units h else magnitudeChars units h

/-- The text of a number as a string. -/
def toText (n : Number) : String := String.ofList n.toChars

end DeskCheck.Number
