import DeskCheck.Expr.Eval
import DeskCheck.Proofs.Equality
import DeskCheck.Proofs.Rendering

/-!
# Printed sequences are read back

A sequence is printed as an expression that evaluates to it, without a look at the store
(`parse_toText_sequence`).  A value is printed as an expression of its own shape (`Value.toExpr`),
in which only a number below zero differs: it is printed with a minus, which the parser takes for an
operator.  So such a number takes a level of nesting more than the sequences around it.

Not every value can be read back.  A not-a-number and the infinities are printed as words, and a
text with a quote in it ends at the quote (`Value.isLiteral`).  The texts need no other care, whatever
brackets, commas and words stand in them, as they are printed in quotes.
-/

namespace DeskCheck

/-- Whether a number is one of the finite ones. -/
def Number.isFinite : Number → Bool
  | .finite .. => true
  | _ => false

/-- The expression that a number is printed as.  The zero below zero is printed without its sign. -/
def Number.toExpr : Number → Expr
  | .finite negative units h =>
    if negative ∧ units ≠ 0 then .unary .neg (.number (.finite false units h))
    else .number (.finite false units h)
  | n => .number n

namespace Value

mutual

/-- The number of sequences that stand inside of one another. -/
def depth : Value → Nat
  | .sequence items => itemsDepth items + 1
  | _ => 0

/-- The depth of the deepest of some values. -/
def itemsDepth : List Value → Nat
  | [] => 0
  | v :: rest => max (depth v) (itemsDepth rest)

end

mutual

/-- Whether a value is printed as a literal: its numbers are finite and its texts have no quote in
them. -/
def isLiteral : Value → Bool
  | .number n => n.isFinite
  | .text s => !s.toList.contains '"'
  | .boolean _ => true
  | .sequence items => areLiterals items

/-- Whether some values are all printed as literals. -/
def areLiterals : List Value → Bool
  | [] => true
  | v :: rest => isLiteral v && areLiterals rest

end

mutual

/-- The expression that a value is printed as. -/
def toExpr : Value → Expr
  | .number n => n.toExpr
  | .text s => .text s
  | .boolean b => .boolean b
  | .sequence items => .sequence (itemsToExpr items)

/-- The expressions that some values are printed as. -/
def itemsToExpr : List Value → List Expr
  | [] => []
  | v :: rest => toExpr v :: itemsToExpr rest

end

theorem areLiterals_iff {items : List Value} :
    areLiterals items = true ↔ ∀ v ∈ items, v.isLiteral = true := by
  induction items with
  | nil => simp [areLiterals]
  | cons v rest ih => simp [areLiterals, ih]

/-! ### What is printed -/

/-- The text of a value among the elements of a sequence. -/
def toItem : Value → List Char
  | .text s => '"' :: (s.toList ++ ['"'])
  | v => v.toChars

theorem itemsToChars_singleton (v : Value) : itemsToChars [v] = v.toItem := by
  cases v <;> simp [itemsToChars, toItem]

theorem itemsToChars_cons_cons (v w : Value) (rest : List Value) :
    itemsToChars (v :: w :: rest) = v.toItem ++ ',' :: ' ' :: itemsToChars (w :: rest) := by
  cases v <;> simp [itemsToChars, toItem]

end Value

/-! ### Numbers -/

open Token (Spells)

namespace Number

theorem spells_toExpr {n : Number} (h : n.isFinite = true) : Spells n.toChars n.toExpr.tokens := by
  cases n with
  | nan => cases h
  | infinite negative => cases h
  | finite negative units hunits =>
    have hmagnitude :
        Spells (magnitudeChars units hunits) [.number (.finite false units hunits)] := by
      obtain ⟨digits, exponent, hnumeral, hvalue⟩ := numeral_magnitudeChars units hunits
      exact hvalue ▸ Token.spells_numeral hnumeral
    rw [toChars, toExpr]
    split
    · -- the minus is a token of its own
      exact Token.spells_nil.append_mark hmagnitude (c := '-') (m := .minus) rfl
    · exact hmagnitude

/-- Only a minus takes a level. -/
theorem need_toExpr (n : Number) : n.toExpr.need ≤ 1 := by
  unfold toExpr
  split
  · split
    · exact Nat.le_refl 1
    · exact Nat.zero_le 1
  · exact Nat.zero_le 1

theorem eval_toExpr {n : Number} (h : n.isFinite = true) (store : Store) :
    ∃ m, n.toExpr.eval store = .pure (.number m) ∧ m.equals n = true := by
  cases n with
  | nan => cases h
  | infinite negative => cases h
  | finite negative units hunits =>
    rw [toExpr]
    split
    · next hbelow =>
      obtain ⟨rfl, -⟩ := hbelow
      exact ⟨.finite true units hunits, rfl, (equals_finite hunits).mpr (.inl rfl)⟩
    · next habove =>
      refine ⟨.finite false units hunits, rfl, (equals_finite hunits).mpr ?_⟩
      cases negative with
      | false => exact .inl rfl
      | true => exact .inr (by simpa using habove)

end Number

namespace Value

/-! ### The tokens -/

theorem spells_itemsToExpr {items : List Value} (h : ∀ v ∈ items, Spells v.toItem v.toExpr.tokens) :
    Spells (itemsToChars items) (Expr.itemsTokens (itemsToExpr items)) := by
  induction items with
  | nil => exact Token.spells_nil
  | cons v rest ih =>
    obtain ⟨hv, hrest⟩ := List.forall_mem_cons.mp h
    cases rest with
    | nil => rwa [itemsToChars_singleton]
    | cons w rest =>
      -- the space belongs to the text behind the comma
      have hspace := Token.spells_nil.append (ih hrest) (c := ' ') rfl
      rw [itemsToChars_cons_cons]
      exact hv.append_mark hspace (c := ',') (m := .comma) rfl

/-- A sequence of which every element is read back is read back. -/
theorem spells_sequence {items : List Value} (h : ∀ v ∈ items, Spells v.toItem v.toExpr.tokens) :
    Spells (Value.sequence items).toChars (Value.sequence items).toExpr.tokens := by
  have hclose := (spells_itemsToExpr h).append_mark Token.spells_nil (c := ']')
    (m := .rightBracket) rfl
  rw [toChars, toExpr, Expr.tokens]
  exact Token.spells_nil.append_mark hclose (c := '[') (m := .leftBracket) rfl

/-- An element of a sequence is scanned as the tokens of its expression. -/
theorem spells_toItem {v : Value} (h : v.isLiteral = true) : Spells v.toItem v.toExpr.tokens := by
  induction v with
  | number n => exact Number.spells_toExpr h
  | text s => exact Token.spells_text (by simpa [isLiteral] using h)
  | boolean b =>
    cases b with
    | false => exact Token.spells_keyword .false
    | true => exact Token.spells_keyword .true
  | sequence items ih =>
    have hitems := areLiterals_iff.mp h
    exact spells_sequence fun v hv => ih v hv (hitems v hv)

/-! ### The levels -/

theorem itemsNeed_itemsToExpr {items : List Value}
    (h : ∀ v ∈ items, v.toExpr.need ≤ v.depth + 1) :
    Expr.itemsNeed (itemsToExpr items) ≤ itemsDepth items + 1 := by
  induction items with
  | nil => exact Nat.zero_le _
  | cons v rest ih =>
    obtain ⟨hv, hrest⟩ := List.forall_mem_cons.mp h
    have hrest := ih hrest
    rw [itemsToExpr, Expr.itemsNeed, itemsDepth]
    omega

/-- A value takes a level for each sequence around its elements, and perhaps one for a minus. -/
theorem need_toExpr (v : Value) : v.toExpr.need ≤ v.depth + 1 := by
  induction v with
  | number n => exact n.need_toExpr
  | text s => exact Nat.zero_le _
  | boolean b => exact Nat.zero_le _
  | sequence items ih =>
    have hitems := itemsNeed_itemsToExpr ih
    rw [toExpr, Expr.need, depth]
    split <;> omega

/-! ### The value -/

theorem evalAll_itemsToExpr {items : List Value} {store : Store}
    (h : ∀ v ∈ items, ∃ w, v.toExpr.eval store = .pure w ∧ w.same v = true) :
    ∃ values, Expr.evalAll store (itemsToExpr items) = .pure values ∧
      sameAll values items = true := by
  induction items with
  | nil => exact ⟨[], rfl, rfl⟩
  | cons v rest ih =>
    obtain ⟨⟨w, hw, hsame⟩, hrest⟩ := List.forall_mem_cons.mp h
    obtain ⟨values, hvalues, hall⟩ := ih hrest
    refine ⟨w :: values, ?_, by simp [sameAll, hsame, hall]⟩
    rw [itemsToExpr, Expr.evalAll, hw, hvalues]
    rfl

/-- The expression that a value is printed as has an equal value and takes no read. -/
theorem eval_toExpr {v : Value} (h : v.isLiteral = true) (store : Store) :
    ∃ w, v.toExpr.eval store = .pure w ∧ w.same v = true := by
  induction v with
  | number n =>
    obtain ⟨m, heval, hequals⟩ := Number.eval_toExpr h store
    exact ⟨.number m, heval, hequals⟩
  | text s => exact ⟨.text s, rfl, beq_self_eq_true s⟩
  | boolean b => exact ⟨.boolean b, rfl, beq_self_eq_true b⟩
  | sequence items ih =>
    have hitems := areLiterals_iff.mp h
    obtain ⟨values, heval, hsame⟩ := evalAll_itemsToExpr fun v hv => ih v hv (hitems v hv)
    refine ⟨.sequence values, ?_, hsame⟩
    rw [toExpr, Expr.eval, heval]
    rfl

/-- **A printed sequence is read back.**  The text of a sequence that is nested at most 63 levels
deep, with finite numbers and without quotes in its texts, is an expression; whatever the store holds,
it evaluates without a read to an equal sequence. -/
theorem parse_toText_sequence {items : List Value} (hdepth : (Value.sequence items).depth ≤ 63)
    (h : (Value.sequence items).isLiteral = true) :
    ∃ e, Expr.parse (Value.sequence items).toText.toList = .ok e ∧ ∀ store,
      (e.eval store).reads = [] ∧ (e.eval store).value.same (.sequence items) = true := by
  refine ⟨(Value.sequence items).toExpr, ?_, fun store => ?_⟩
  · have hneed : (Value.sequence items).toExpr.need ≤ maxLevels :=
      Nat.le_trans (need_toExpr _) (Nat.succ_le_succ hdepth)
    rw [toText, String.toList_ofList]
    exact Expr.parse_of_spells (spells_toItem h) hneed
  · obtain ⟨w, heval, hsame⟩ := eval_toExpr h store
    rw [heval]
    exact ⟨rfl, hsame⟩

/-- Numbers of both signs, a text that looks like code, and sequences of none and of one element. -/
def assorted : List Value :=
  [.number (.ofFraction true Magnitude.one 2), .number (.zero true), .text "a], [THEN", .boolean true,
    .sequence [.sequence [], .sequence [.number (.ofNat 1000)]]]

theorem parse_toText_assorted :
    (Value.sequence assorted).toText = "[-0.5, 0, \"a], [THEN\", true, [[], [1000]]]" ∧
    ∃ e, Expr.parse (Value.sequence assorted).toText.toList = .ok e ∧ ∀ store,
      (e.eval store).reads = [] ∧ (e.eval store).value.same (.sequence assorted) = true :=
  ⟨by decide +kernel, parse_toText_sequence (by decide +kernel) (by decide +kernel)⟩

/-- Inside of 64 sequences a number below zero is nested too deep. -/
example :
    let nested := Nat.repeat (fun v => Value.sequence [v]) 64 (.number (.neg (.ofNat 1)))
    (Expr.parse nested.toChars).toOption.isNone ∧ nested.depth = 64 := by decide +kernel

end Value
end DeskCheck
