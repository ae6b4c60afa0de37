import DeskCheck.Number

/-!
# Reading decimals

A decimal is a sign, digits with at most one point among them, and perhaps an exponent of ten.
It is read as the double nearest to its exact value, whatever its length.

The exponent is bounded: its digits count up to the one with which it reaches `exponentBound`, and
the others are passed over.  Past the bound an exponent decides the result of every decimal of up
to sixty thousand digits, so only a longer text can tell.

`valueOfDigits_eq` says that a row of digits, which is read in halves, writes the number that it writes
from left to right.
-/

namespace DeskCheck.Number

open Magnitude (one)
open scoped Magnitude

/-- The double nearest to `digits * 10 ^ exponent`.  An exponent that alone decides the result
(past every finite double, or below half the smallest) is answered without computing the power. -/
def ofDecimal (negative : Bool) (digits : Nat) : Int → Number
  | .ofNat exponent =>
    if digits = 0 then zero negative
    else if 400 < exponent then .infinite negative
    else ofFraction negative (digits * 10 ^ exponent * one) 1
  | .negSucc below =>
    if digits.log2 + 1100 < 3 * (below + 1) then zero negative
    else ofFraction negative (digits * one) (10 ^ (below + 1))

/-- No digits but zeros are zero, whatever the exponent. -/
theorem ofDecimal_zero (negative : Bool) (exponent : Int) :
    ofDecimal negative 0 exponent = zero negative := by
  have hfrac : ∀ den, 0 < den → ofFraction negative 0 den = zero negative := fun den hden => by
    have := ofFraction_mul_right negative Magnitude.representable_zero hden
    rwa [Nat.zero_mul] at this
  cases exponent with
  | ofNat e => simp only [ofDecimal, if_true]
  | negSucc below =>
    simp only [ofDecimal, Nat.zero_mul, hfrac _ (Nat.pow_pos (show 0 < 10 by decide)), ite_self]

/-! ### Digits -/

/-- The number that a row of digits writes.  The row is halved `depth` times, so that the products
are balanced, and the pieces are read from left to right. -/
def valueInHalves : (depth : Nat) → List Char → Nat
  | 0, ds => Nat.ofDigitChars 10 ds 0
  | depth + 1, ds =>
    let front := ds.take (ds.length / 2)
    let back := ds.drop (ds.length / 2)
    valueInHalves depth front * 10 ^ back.length + valueInHalves depth back

/-- The number that a row of digits writes. -/
def valueOfDigits (ds : List Char) : Nat := valueInHalves (ds.length / 64).log2 ds

theorem valueInHalves_eq (depth : Nat) (ds : List Char) :
    valueInHalves depth ds = Nat.ofDigitChars 10 ds 0 := by
  induction depth generalizing ds with
  | zero => rfl
  | succ depth ih =>
    have hsplit := congrArg (Nat.ofDigitChars 10 · 0) (List.take_append_drop (ds.length / 2) ds)
    rw [Nat.ofDigitChars_append, Nat.ofDigitChars_eq_ofDigitChars_zero] at hsplit
    dsimp only [valueInHalves]
    rw [ih, ih, Nat.mul_comm, hsplit]

/-- Reading in halves changes nothing. -/
theorem valueOfDigits_eq (ds : List Char) : valueOfDigits ds = Nat.ofDigitChars 10 ds 0 :=
  valueInHalves_eq _ ds

/-- An exponent that has reached this takes no further digit. -/
def exponentBound : Nat := 2 ^ (16 : Nat)

/-- The digits of an exponent behind those that write `e`, up to the digit with which it reaches
the bound. -/
def boundedExponent (e : Nat) : List Char → Nat
  | [] => e
  | d :: ds => if e < exponentBound then boundedExponent (Nat.ofDigitChars 10 [d] e) ds else e

/-! ### The text of a decimal -/

/-- A leading sign, if there is one: whether it is a minus, and what follows it. -/
def readSign : List Char → Bool × List Char
  | '-' :: rest => (true, rest)
  | '+' :: rest => (false, rest)
  | rest => (false, rest)

/-- The exponent at the end of a decimal, zero when it is left out. -/
def readExponent? : List Char → Option Int
  | [] => some 0
  | c :: rest =>
    let (negative, ds) := readSign rest
    if (c = 'e' ∨ c = 'E') ∧ ds ≠ [] ∧ ds.all Char.isDigit then
      some (signed negative (boundedExponent 0 ds))
    else none

/-- The digits behind a leading point, if there is one, and what follows them. -/
def readFraction : List Char → List Char × List Char
  | '.' :: rest => (rest.takeWhile Char.isDigit, rest.dropWhile Char.isDigit)
  | rest => ([], rest)

/-- Reads `[sign] digits [. digits] [e [sign] digits]`, where one of the two runs of digits in
front of the exponent may be empty. -/
def read? (text : List Char) : Option Number :=
  let (negative, unsigned) := readSign text
  let whole := unsigned.takeWhile Char.isDigit
  let (fraction, rest) := readFraction (unsigned.dropWhile Char.isDigit)
  if whole ++ fraction = [] then none
  else
    (readExponent? rest).map fun exponent =>
      ofDecimal negative (valueOfDigits (whole ++ fraction)) (exponent - fraction.length)

end DeskCheck.Number
