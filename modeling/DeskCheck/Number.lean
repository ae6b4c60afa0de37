import DeskCheck.Number.Magnitude

/-!
# Numbers

The language has one kind of number, the binary64 double: a not-a-number, two infinities, and
the finite doubles with a sign and a magnitude in units (so there is a positive and a negative
zero).  An operation computes the exact result as a fraction of units and rounds it once, by
`ofFraction`; nothing depends on the machine's own arithmetic, so every law of an operation is
a law about natural numbers and integers.

Order and equality go through `toInt?`, the place of a number on the line counted in units: an
infinity stands at the first magnitude past the finite ones and a not-a-number stands nowhere.
-/

namespace DeskCheck

/-- A binary64 double. -/
inductive Number where
  /-- The result of an operation without a result; it equals nothing, itself included. -/
  | nan
  | infinite (negative : Bool)
  /-- The sign and the magnitude in units. -/
  | finite (negative : Bool) (units : Nat) (representable : Magnitude.Representable units)
deriving DecidableEq

namespace Number

open Magnitude (one limit Representable roundToPrecision)

/-- Zero with a sign. -/
def zero (negative : Bool) : Number := .finite negative 0 Magnitude.representable_zero

/-- The double nearest to `num / den` units, with the given sign; past the finite ones, an infinity. -/
def ofFraction (negative : Bool) (num den : Nat) : Number :=
  let m := roundToPrecision num den
  if h : m < limit then
    .finite negative m ⟨h, Magnitude.dvd_roundToPrecision num den⟩
  else
    .infinite negative

/-- Rounding leaves a double as it is, whatever fraction gives it. -/
theorem ofFraction_mul_right (negative : Bool) {m den : Nat} (h : Representable m)
    (hden : 0 < den) : ofFraction negative (m * den) den = .finite negative m h := by
  unfold ofFraction
  simp only [Magnitude.roundToPrecision_mul_right h.2 hden, h.1, dite_true]

theorem ofFraction_one (negative : Bool) {m : Nat} (h : Representable m) :
    ofFraction negative m 1 = .finite negative m h := by
  have := ofFraction_mul_right negative h Nat.one_pos
  rwa [Nat.mul_one] at this

/-- The double nearest to a whole number. -/
def ofNat (n : Nat) : Number := ofFraction false (n * one) 1

instance : Inhabited Number := ⟨zero false⟩

/-! ### Sign, kind and order -/

def isNaN : Number → Bool
  | .nan => true
  | _ => false

def isZero : Number → Bool
  | .finite _ 0 _ => true
  | _ => false

/-- `m` with a sign. -/
def signed (negative : Bool) (m : Nat) : Int := if negative then -(m : Int) else m

/-- The place on the number line, in units. -/
def toInt? : Number → Option Int
  | .nan => none
  | .infinite negative => some (signed negative limit)
  | .finite negative units _ => some (signed negative units)

/-- The order of the number line; `none` if one of the two is not a number. -/
def compare? (a b : Number) : Option Ordering :=
  match a.toInt?, b.toInt? with
  | some x, some y => some (compare x y)
  | _, _ => none

/-- Equality as numbers: the two zeros are equal, and not-a-number equals nothing. -/
def equals (a b : Number) : Bool := a.compare? b == some .eq

/-! ### Arithmetic -/

def neg : Number → Number
  | .nan => .nan
  | .infinite s => .infinite (!s)
  | .finite s m h => .finite (!s) m h

/-- Opposite numbers sum to the positive zero, two negative zeros to the negative one. -/
def add : Number → Number → Number
  | .nan, _ | _, .nan => .nan
  | .infinite s, .infinite t => if s = t then .infinite s else .nan
  | .infinite s, .finite .. => .infinite s
  | .finite .., .infinite t => .infinite t
  | .finite s a _, .finite t b _ =>
    let sum := signed s a + signed t b
    if sum = 0 then zero (s && t) else ofFraction (sum < 0) sum.natAbs 1

def sub (a b : Number) : Number := a.add b.neg

def mul : Number → Number → Number
  | .nan, _ | _, .nan => .nan
  | .infinite s, .infinite t => .infinite (s != t)
  | .infinite s, .finite t b _ => if b = 0 then .nan else .infinite (s != t)
  | .finite s a _, .infinite t => if a = 0 then .nan else .infinite (s != t)
  | .finite s a _, .finite t b _ => ofFraction (s != t) (a * b) one

def div : Number → Number → Number
  | .nan, _ | _, .nan => .nan
  | .infinite _, .infinite _ => .nan
  | .infinite s, .finite t _ _ => .infinite (s != t)
  | .finite s _ _, .infinite t => zero (s != t)
  | .finite s a _, .finite t b _ =>
    if b = 0 then
      if a = 0 then .nan else .infinite (s != t)
    else
      ofFraction (s != t) (a * one) b

/-- The exact remainder of a division rounded toward zero; it has the sign of the dividend. -/
def rem : Number → Number → Number
  | .nan, _ | _, .nan => .nan
  | .infinite _, _ => .nan
  | .finite s a h, .infinite _ => .finite s a h
  | .finite s a _, .finite _ b _ => if b = 0 then .nan else ofFraction s (a % b) 1

/-! ### Positions -/

/-- The largest position: counts are 64-bit words. -/
def maxPosition : Nat := UInt64.size - 1

/-- The number as a position in a sequence: finite, whole and not below zero.  A number past the
largest position stands for that one. -/
def toPosition? : Number → Option Nat
  | .finite negative units _ =>
    if (negative && units != 0) || units % one != 0 then none
    else some (min (units / one) maxPosition)
  | _ => none

end Number
end DeskCheck
