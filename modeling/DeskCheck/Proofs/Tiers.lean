import DeskCheck.Expr.Parse

/-!
# The tiers of the grammar

Seven of the eight tiers have operators: five are chains of operands, two put an operator in front
of an operand.  Each operator belongs to one tier and is written with one token, so what is said of
the tiers below is said once for the operators of either kind: `tier_binary` and `tier_unary` are
the rules of the chains and of the prefixes, and `Tier.cases` says that there are no others.

An expression of a tier ends where no operator follows that binds at least as tightly
(`Tier.Stops`).
-/

namespace DeskCheck

/-- The place of a tier in the order of binding; `or` binds least. -/
def Tier.level : Tier → Nat
  | .or => 0
  | .and => 1
  | .not => 2
  | .comparison => 3
  | .additive => 4
  | .multiplicative => 5
  | .unary => 6
  | .atom => 7

namespace BinaryOp

/-- The tier in whose chains the operator stands. -/
def tier : BinaryOp → Tier
  | .or => .or
  | .and => .and
  | .eq | .ne | .lt | .le | .gt | .ge => .comparison
  | .add | .sub => .additive
  | .mul | .div | .mod => .multiplicative

/-- The token of the operator. -/
def token : BinaryOp → Token
  | .add => .mark .plus | .sub => .mark .minus
  | .mul => .mark .star | .div => .mark .slash | .mod => .mark .percent
  | .eq => .mark .equal | .ne => .mark .notEqual
  | .lt => .mark .less | .le => .mark .lessEqual
  | .gt => .mark .greater | .ge => .mark .greaterEqual
  | .and => .keyword .and | .or => .keyword .or

theorem token_injective {op op' : BinaryOp} (h : op.token = op'.token) : op = op' := by
  cases op <;> cases op' <;> first | rfl | cases h

end BinaryOp

namespace UnaryOp

/-- The tier on which the operator stands in front of an operand. -/
def tier : UnaryOp → Tier
  | .neg => .unary
  | .not => .not

/-- The token of the operator. -/
def token : UnaryOp → Token
  | .neg => .mark .minus
  | .not => .keyword .not

theorem token_injective {op op' : UnaryOp} (h : op.token = op'.token) : op = op' := by
  cases op <;> cases op' <;> first | rfl | cases h

end UnaryOp

namespace Tier

/-- A tier has binary operators, or a unary one, or is that of the atoms. -/
theorem cases (t : Tier) :
    (∃ op : BinaryOp, t = op.tier) ∨ (∃ op : UnaryOp, t = op.tier) ∨ t = .atom := by
  cases t with
  | or => exact .inl ⟨.or, rfl⟩
  | and => exact .inl ⟨.and, rfl⟩
  | not => exact .inr (.inl ⟨.not, rfl⟩)
  | comparison => exact .inl ⟨.eq, rfl⟩
  | additive => exact .inl ⟨.add, rfl⟩
  | multiplicative => exact .inl ⟨.mul, rfl⟩
  | unary => exact .inr (.inl ⟨.neg, rfl⟩)
  | atom => exact .inr (.inr rfl)

theorem level_le_atom (t : Tier) : t.level ≤ Tier.atom.level := by
  cases t <;> decide

theorem level_next {t : Tier} (h : t ≠ .atom) : t.next.level = t.level + 1 := by
  cases t <;> first | rfl | exact absurd rfl h

theorem level_injective {t t' : Tier} (h : t.level = t'.level) : t = t' := by
  cases t <;> cases t' <;> first | rfl | cases h

theorem binary_ne_atom (op : BinaryOp) : op.tier ≠ .atom := by
  cases op <;> decide

theorem binary_ne_unary (op : BinaryOp) (op' : UnaryOp) : op.tier ≠ op'.tier := by
  cases op <;> cases op' <;> decide

/-- A token is an operator of one tier at most. -/
theorem operator?_eq_some_iff {t : Tier} {tok : Token} {op : BinaryOp} :
    t.operator? tok = some op ↔ t = op.tier ∧ tok = op.token := by
  constructor
  · intro h
    unfold operator? at h
    split at h <;> cases h <;> exact ⟨rfl, rfl⟩
  · rintro ⟨rfl, rfl⟩
    cases op <;> rfl

/-- No operator that binds as tightly as the tier, or tighter, follows. -/
def Stops (t : Tier) (rest : List Token) : Prop :=
  ∀ op : BinaryOp, rest.head? = some op.token → op.tier.level < t.level

theorem stops_nil (t : Tier) : t.Stops [] := by
  intro op h
  cases h

theorem Stops.mono {t t' : Tier} {rest : List Token} (h : t.Stops rest)
    (hle : t.level ≤ t'.level) : t'.Stops rest :=
  fun op hop => Nat.lt_of_lt_of_le (h op hop) hle

end Tier

/-! ### One layer of the parser -/

namespace Parse

/-- The layer that is one level deeper than one with a number of levels left. -/
def below : Nat → Option Layer
  | 0 => none
  | levels + 1 => some (.ofLevels levels)

theorem ofLevels_eq (levels : Nat) : Layer.ofLevels levels = .above (below levels) := by
  cases levels <;> rfl

variable (b : Option Layer)

theorem tier_binary (op : BinaryOp) :
    (Layer.above b).tier op.tier = chained b op.tier ((Layer.above b).tier op.tier.next) := by
  cases op <;> rfl

theorem tier_unary (op : UnaryOp) :
    (Layer.above b).tier op.tier =
      prefixed b op.token op op.tier ((Layer.above b).tier op.tier.next) := by
  cases op <;> rfl

/-- A chain goes on with an operator of its tier, one level deeper. -/
theorem chain_operator (op : BinaryOp) (left : Expr) (ts : List Token) :
    chain b op.tier left (op.token :: ts) =
      deeper b (fun layer ts => do
        let (right, ts) ← layer.tier op.tier.next ts
        layer.chain op.tier (.binary op left right) ts) ts := by
  have hop : op.tier.operator? op.token = some op := Tier.operator?_eq_some_iff.mpr ⟨rfl, rfl⟩
  simp only [chain, hop]

/-- A chain ends where no operator of its tier follows. -/
theorem chain_stops {t : Tier} {rest : List Token} (left : Expr) (h : t.Stops rest) :
    chain b t left rest = .ok (left, rest) := by
  cases rest with
  | nil => rfl
  | cons tok rest =>
    have hnone : t.operator? tok = none := by
      rcases hop : t.operator? tok with _ | op
      · rfl
      · obtain ⟨rfl, rfl⟩ := Tier.operator?_eq_some_iff.mp hop
        exact absurd (h op rfl) (Nat.lt_irrefl _)
    simp only [chain, hnone]

end Parse
end DeskCheck
