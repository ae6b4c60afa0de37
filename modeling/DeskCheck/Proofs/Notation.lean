import DeskCheck.Proofs.Tiers
import Mathlib.Data.List.Induction

/-!
# Expressions as tokens

`Expr.tokens` writes an expression tree with the fewest parentheses that the tiers of the grammar
allow: an operand of a chain stands in parentheses if it binds less than the chain, and on the right
also if it is a chain of the same tier; the operand of a prefix operator if it binds less than the
operator.

`Expr.need` is the number of levels of nesting in what is written.  A chain counts in a way of its
own: each of its operators takes one level for all that follows it, so that the operand behind `j`
operators stands `j` levels down, and the first operand, deepest in the tree, on no level
(`needAt_chain`).
-/

namespace DeskCheck

/-- What is written, in parentheses if it is asked for. -/
def Token.enclose (wanted : Bool) (ts : List Token) : List Token :=
  if wanted then .mark .leftParen :: ts ++ [.mark .rightParen] else ts

namespace Expr

/-- The tier of the grammar that an expression belongs to. -/
def tier : Expr → Tier
  | .binary op _ _ => op.tier
  | .unary op _ => op.tier
  | _ => .atom

/-- Whether an expression needs parentheses where one of tier `t` is asked for. -/
def isBelow (t : Tier) (e : Expr) : Bool := e.tier.level < t.level

mutual

/-- The tokens of an expression. -/
def tokens : Expr → List Token
  | .number n => [.number n]
  | .text s => [.text s]
  | .boolean b => [.keyword (if b then .true else .false)]
  | .variable name => [.name name]
  | .index name inner => .name name :: .mark .leftBracket :: inner.tokens ++ [.mark .rightBracket]
  | .sequence items => .mark .leftBracket :: itemsTokens items ++ [.mark .rightBracket]
  | .binary op left right =>
    Token.enclose (left.isBelow op.tier) left.tokens ++
      op.token :: Token.enclose (right.isBelow op.tier.next) right.tokens
  | .unary op operand => op.token :: Token.enclose (operand.isBelow op.tier) operand.tokens

/-- The tokens of the elements of a sequence, between its brackets. -/
def itemsTokens : List Expr → List Token
  | [] => []
  | e :: rest =>
    match rest with
    | [] => e.tokens
    | _ :: _ => e.tokens ++ .mark .comma :: itemsTokens rest

end

/-- The number of operators in the chain of a tier that an expression is. -/
def operators (t : Tier) : Expr → Nat
  | .binary op left _ => if op.tier = t then left.operators t + 1 else 0
  | _ => 0

mutual

/-- The levels of nesting that an expression takes. -/
def need : Expr → Nat
  | .index _ inner => inner.need + 1
  | .sequence items => if items.isEmpty then 0 else itemsNeed items + 1
  | .binary op left right =>
    max (left.need + (left.isBelow op.tier).toNat)
      (left.operators op.tier + 1 + (right.need + (right.isBelow op.tier.next).toNat))
  | .unary op operand => operand.need + (operand.isBelow op.tier).toNat + 1
  | _ => 0

/-- The levels that the elements of a sequence take. -/
def itemsNeed : List Expr → Nat
  | [] => 0
  | e :: rest => max e.need (itemsNeed rest)

end

/-- The tokens of an expression where one of tier `t` is asked for. -/
def tokensAt (t : Tier) (e : Expr) : List Token := Token.enclose (e.isBelow t) e.tokens

/-- The levels of an expression where one of tier `t` is asked for: parentheses take one. -/
def needAt (t : Tier) (e : Expr) : Nat := e.need + (e.isBelow t).toNat

/-! ### Induction over expressions -/

/-- Induction over expressions, in which the elements of a sequence are below it. -/
@[elab_as_elim, induction_eliminator]
theorem induction {motive : Expr → Prop} (number : ∀ n, motive (.number n))
    (text : ∀ s, motive (.text s)) (boolean : ∀ b, motive (.boolean b))
    (name : ∀ s, motive (.variable s))
    (index : ∀ s inner, motive inner → motive (.index s inner))
    (sequence : ∀ items, (∀ e ∈ items, motive e) → motive (.sequence items))
    (binary : ∀ op left right, motive left → motive right → motive (.binary op left right))
    (unary : ∀ op operand, motive operand → motive (.unary op operand)) (e : Expr) : motive e :=
  @Expr.rec motive (fun items => ∀ e ∈ items, motive e) number text boolean name index sequence
    binary unary (fun _ h => absurd h List.not_mem_nil)
    (fun _ _ hfirst hrest => List.forall_mem_cons.mpr ⟨hfirst, hrest⟩) e

/-! ### Parentheses -/

section Parentheses

variable {e : Expr} {t t' : Tier}

theorem isBelow_eq_false (h : t.level ≤ e.tier.level) : e.isBelow t = false :=
  decide_eq_false (Nat.not_lt_of_le h)

theorem isBelow_next (h : e.tier ≠ t) (ht : t ≠ .atom) : e.isBelow t.next = e.isBelow t := by
  have hne : e.tier.level ≠ t.level := fun heq => h (Tier.level_injective heq)
  rw [isBelow, isBelow, Tier.level_next ht, decide_eq_decide]
  omega

theorem tokensAt_of_le (h : t.level ≤ e.tier.level) : e.tokensAt t = e.tokens := by
  rw [tokensAt, isBelow_eq_false h]
  rfl

theorem needAt_of_le (h : t.level ≤ e.tier.level) : e.needAt t = e.need := by
  rw [needAt, isBelow_eq_false h]
  rfl

theorem tokensAt_of_lt (h : e.tier.level < t.level) :
    e.tokensAt t = .mark .leftParen :: e.tokens ++ [.mark .rightParen] := by
  rw [tokensAt, isBelow, decide_eq_true h]
  rfl

theorem needAt_of_lt (h : e.tier.level < t.level) : e.needAt t = e.need + 1 := by
  rw [needAt, isBelow, decide_eq_true h]
  rfl

theorem tokensAt_self (e : Expr) : e.tokensAt e.tier = e.tokens := tokensAt_of_le (Nat.le_refl _)

theorem needAt_self (e : Expr) : e.needAt e.tier = e.need := needAt_of_le (Nat.le_refl _)

/-- Where any expression may stand, none needs parentheses. -/
theorem tokensAt_or (e : Expr) : e.tokensAt .or = e.tokens := tokensAt_of_le (Nat.zero_le _)

theorem needAt_or (e : Expr) : e.needAt .or = e.need := needAt_of_le (Nat.zero_le _)

end Parentheses

theorem tokens_binary (op : BinaryOp) (left right : Expr) :
    (Expr.binary op left right).tokens =
      left.tokensAt op.tier ++ op.token :: right.tokensAt op.tier.next := by
  rw [tokens]
  rfl

theorem tokens_unary (op : UnaryOp) (operand : Expr) :
    (Expr.unary op operand).tokens = op.token :: operand.tokensAt op.tier := by
  rw [tokens]
  rfl

theorem need_binary (op : BinaryOp) (left right : Expr) :
    (Expr.binary op left right).need =
      max (left.needAt op.tier) (left.operators op.tier + 1 + right.needAt op.tier.next) := by
  rw [need]
  rfl

theorem need_unary (op : UnaryOp) (operand : Expr) :
    (Expr.unary op operand).need = operand.needAt op.tier + 1 := by
  rw [need]
  rfl

end Expr

/-! ### The first token -/

/-- A token with which an expression of tier `t` can begin: it closes no sequence, and if it is a
prefix operator, this binds as tightly as the tier or tighter. -/
def Tier.Begins (t : Tier) (tok : Token) : Prop :=
  tok ≠ .mark .rightBracket ∧ ∀ op : UnaryOp, tok = op.token → t.level ≤ op.tier.level

theorem Tier.Begins.mono {t t' : Tier} {tok : Token} (h : t.Begins tok)
    (hle : t'.level ≤ t.level) : t'.Begins tok :=
  ⟨h.1, fun op hop => Nat.le_trans hle (h.2 op hop)⟩

/-- Tokens that are no prefix operator begin an expression of any tier. -/
theorem Tier.begins_of_ne {tok : Token} (hclose : tok ≠ .mark .rightBracket)
    (hop : ∀ op : UnaryOp, tok ≠ op.token) (t : Tier) : t.Begins tok :=
  ⟨hclose, fun op h => absurd h (hop op)⟩

namespace Expr

theorem begins_tokensAt {e : Expr} (h : ∃ tok ts, e.tokens = tok :: ts ∧ e.tier.Begins tok)
    (t : Tier) : ∃ tok ts, e.tokensAt t = tok :: ts ∧ t.Begins tok := by
  rcases Nat.lt_or_ge e.tier.level t.level with hlt | hge
  · rw [tokensAt_of_lt hlt]
    exact ⟨_, _, rfl, Tier.begins_of_ne (by decide) (by intro op; cases op <;> decide) t⟩
  · obtain ⟨tok, ts, htokens, hbegins⟩ := h
    rw [tokensAt_of_le hge]
    exact ⟨tok, ts, htokens, hbegins.mono hge⟩

theorem begins_tokens (e : Expr) : ∃ tok ts, e.tokens = tok :: ts ∧ e.tier.Begins tok := by
  induction e with
  | number n => exact ⟨_, _, rfl, nofun, fun op => by cases op <;> nofun⟩
  | text s => exact ⟨_, _, rfl, nofun, fun op => by cases op <;> nofun⟩
  | boolean b => exact ⟨_, _, rfl, nofun, fun op => by cases op <;> cases b <;> nofun⟩
  | name s => exact ⟨_, _, rfl, nofun, fun op => by cases op <;> nofun⟩
  | index s inner _ =>
    rw [tokens]
    exact ⟨.name s, _, rfl, nofun, fun op => by cases op <;> nofun⟩
  | sequence items _ =>
    rw [tokens]
    exact ⟨.mark .leftBracket, _, rfl, nofun, fun op => by cases op <;> nofun⟩
  | binary op left right hleft _ =>
    obtain ⟨tok, ts, htokens, hbegins⟩ := begins_tokensAt hleft op.tier
    exact ⟨tok, _, by rw [tokens_binary, htokens, List.cons_append], hbegins⟩
  | unary op operand _ =>
    refine ⟨op.token, _, tokens_unary op operand, ?_, fun op' h => ?_⟩
    · cases op <;> nofun
    · rw [UnaryOp.token_injective h]
      exact Nat.le_refl _

/-! ### Chains -/

/-- Of another tier, an expression is no chain and has no operators. -/
theorem operators_eq_zero {e : Expr} {t : Tier} (h : e.tier ≠ t) : e.operators t = 0 := by
  cases e with
  | binary op left right => exact if_neg h
  | _ => rfl

/-- The chain of a first operand and further operands, each behind its operator. -/
def chain (first : Expr) (rest : List (BinaryOp × Expr)) : Expr :=
  rest.foldl (fun left link => .binary link.1 left link.2) first

/-- The operand behind `j` operators stands `j` levels down, and a chain takes as many levels as
the operand that takes most. -/
theorem needAt_chain {t : Tier} {first : Expr} (hfirst : first.operators t = 0)
    {rest : List (BinaryOp × Expr)} (hrest : ∀ link ∈ rest, link.1.tier = t) (n : Nat) :
    (chain first rest).needAt t ≤ n ↔
      first.needAt t ≤ n ∧ ∀ j link, rest[j]? = some link → j + 1 + link.2.needAt t.next ≤ n := by
  suffices (chain first rest).operators t = rest.length ∧ ((chain first rest).needAt t ≤ n ↔
      first.needAt t ≤ n ∧ ∀ j link, rest[j]? = some link → j + 1 + link.2.needAt t.next ≤ n) from
    this.2
  -- from the right, as the last link is the root of the tree
  induction rest using List.reverseRecOn with
  | nil => exact ⟨hfirst, by simp [chain]⟩
  | append_singleton rest link ih =>
    obtain ⟨op, operand⟩ := link
    obtain ⟨hops, hneed⟩ := ih fun l hl => hrest l (List.mem_append_left _ hl)
    obtain rfl : op.tier = t := hrest (op, operand) (List.mem_append_right _ (List.mem_singleton_self _))
    have hchain : chain first (rest ++ [(op, operand)]) = .binary op (chain first rest) operand := by
      simp [chain]
    have hroot : (chain first (rest ++ [(op, operand)])).needAt op.tier =
        max ((chain first rest).needAt op.tier) (rest.length + 1 + operand.needAt op.tier.next) := by
      have hself := needAt_self (.binary op (chain first rest) operand)
      rw [hchain, ← hops]
      exact hself.trans (need_binary op _ operand)
    refine ⟨by simp [hchain, operators, hops], ?_⟩
    rw [hroot, Nat.max_le, hneed, and_assoc]
    refine and_congr_right fun _ => ⟨?_, ?_⟩
    · rintro ⟨hinner, hlast⟩ j link hlink
      rcases Nat.lt_or_ge j rest.length with hlt | hge
      · exact hinner j link (by rwa [List.getElem?_append_left hlt] at hlink)
      · rw [List.getElem?_append_right hge, List.getElem?_singleton] at hlink
        split at hlink <;> cases hlink
        obtain rfl : j = rest.length := by omega
        exact hlast
    · intro h
      refine ⟨fun j link hlink => h j link ?_, h rest.length (op, operand) (by simp)⟩
      rwa [List.getElem?_append_left (List.getElem?_eq_some_iff.mp hlink).1]

end Expr
end DeskCheck
