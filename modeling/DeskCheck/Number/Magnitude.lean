/-!
# Magnitudes of doubles

Every finite binary64 double is a whole number of *units* of `2^-1074`, the smallest positive
double.  A magnitude is therefore kept as the natural number of its units: order and equality
are those of `Nat`, sums and remainders are exact, and a product or quotient is an exact
fraction of units until it is rounded.

`nearest` rounds a fraction to a whole number, a tie going to the even neighbour.
`roundToPrecision` does the same on the coarser grid that leaves 53 significant bits, and
`dvd_roundToPrecision` says that the result is on the grid which its own size asks for; below
the limit it is `Representable`.
-/

namespace DeskCheck.Magnitude

/-- A power of natural numbers is the one of `Nat`, whatever other power there is. -/
scoped instance (priority := high) natPow : Pow Nat Nat := instPowNat

/-- The binary places of a unit. -/
def places : Nat := 1074

/-- The units of the number one. -/
def one : Nat := 2 ^ places

/-- The first magnitude past the largest double: `2^1024` in units. -/
def limit : Nat := 2 ^ (places + 1024)

/-- `m` units are a double: they lie below the limit and have at most 53 significant bits. -/
def Representable (m : Nat) : Prop := m < limit ∧ 2 ^ (m.log2 - 52) ∣ m

instance (m : Nat) : Decidable (Representable m) := by
  unfold Representable; infer_instance

theorem limit_pos : 0 < limit := Nat.two_pow_pos _

theorem representable_zero : Representable 0 := ⟨limit_pos, Nat.dvd_zero _⟩

/-! ### Rounding a fraction -/

/-- The whole number nearest to `num / den`; of two equally near ones, the even one. -/
def nearest (num den : Nat) : Nat :=
  let whole := num / den
  let twice := 2 * (num % den)
  if den < twice ∨ (twice = den ∧ whole % 2 = 1) then whole + 1 else whole

theorem nearest_le (num den : Nat) : nearest num den ≤ num / den + 1 := by
  unfold nearest; dsimp only; split <;> omega

theorem nearest_mul_right (m : Nat) {den : Nat} (h : 0 < den) : nearest (m * den) den = m := by
  unfold nearest; simp [Nat.mul_div_cancel _ h, Nat.mul_mod_left]; omega

/-- The bits of `num / den` past the 53 leading ones: the exponent of the grid to round on. -/
def surplus (num den : Nat) : Nat := (num / den).log2 - 52

/-- `num / den` rounded to 53 significant bits, or to a whole unit where that is coarser. -/
def roundToPrecision (num den : Nat) : Nat :=
  nearest num (den * 2 ^ surplus num den) * 2 ^ surplus num den

theorem nearest_surplus_le (num den : Nat) :
    nearest num (den * 2 ^ surplus num den) ≤ 2 ^ (53 : Nat) := by
  refine Nat.le_trans (nearest_le _ _) ?_
  have hlt : num / den / 2 ^ surplus num den < 2 ^ (53 : Nat) := by
    rw [Nat.div_lt_iff_lt_mul (Nat.two_pow_pos _), ← Nat.pow_add]
    refine Nat.lt_of_lt_of_le Nat.lt_log2_self (Nat.pow_le_pow_right (by decide) ?_)
    unfold surplus; omega
  rw [← Nat.div_div_eq_div_mul]
  omega

/-- The rounded magnitude has at most 53 significant bits. -/
theorem dvd_roundToPrecision (num den : Nat) :
    2 ^ ((roundToPrecision num den).log2 - 52) ∣ roundToPrecision num den := by
  have hle := nearest_surplus_le num den
  unfold roundToPrecision
  generalize nearest num (den * 2 ^ surplus num den) = k at hle
  generalize surplus num den = s
  rcases Nat.lt_or_eq_of_le hle with hlt | rfl
  · refine Nat.dvd_trans (Nat.pow_dvd_pow 2 ?_) (Nat.dvd_mul_left _ _)
    by_cases hk : k = 0
    · simp [hk]
    · have hpos : k * 2 ^ s ≠ 0 := Nat.mul_ne_zero hk (Nat.ne_of_gt (Nat.two_pow_pos s))
      have : (k * 2 ^ s).log2 < 53 + s := by
        rw [Nat.log2_lt hpos, Nat.pow_add]
        exact Nat.mul_lt_mul_of_pos_right hlt (Nat.two_pow_pos s)
      omega
  · rw [← Nat.pow_add, Nat.log2_two_pow]
    exact Nat.pow_dvd_pow 2 (by omega)

/-- A magnitude of at most 53 significant bits is its own rounding, whatever fraction gives it. -/
theorem roundToPrecision_mul_right {m den : Nat} (h : 2 ^ (m.log2 - 52) ∣ m) (hden : 0 < den) :
    roundToPrecision (m * den) den = m := by
  obtain ⟨k, hk⟩ := h
  unfold roundToPrecision surplus
  rw [Nat.mul_div_cancel _ hden]
  generalize hs : 2 ^ (m.log2 - 52) = g at hk
  have hg : 0 < g := hs ▸ Nat.two_pow_pos _
  have hnum : m * den = k * (den * g) := by rw [hk]; ac_rfl
  rw [hnum, nearest_mul_right k (Nat.mul_pos hden hg), hk, Nat.mul_comm]

end DeskCheck.Magnitude
