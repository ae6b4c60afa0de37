import DeskCheck.Proofs.Grammar
import DeskCheck.Proofs.Levels

/-!
# How tall the trees of expressions are

Every bracket, prefix operator and further operator of a chain takes one level of nesting.  Yet the
tree may be taller than the levels there are (`height_exceeds_levels`).  The levels that the first
operand of a chain takes are given back before the operators of the chain take theirs, but in the
tree the first operand stands below all these operators.

So each of the five tiers of chains may add as many nodes as there are levels on top of an atom that
takes all of them itself, and a bracket around such an expression begins anew with one level less.
`tallest` adds this up.  It bounds what a layer of the parser reads, part by part (`low_ofLevels`),
and the expressions `tower` reach it: the tallest tree that is read has a height of 10464
(`height_of_ofTokens`, `ofTokens_tower`).

Trees that lean to the right (`leansRight`) are no taller than the levels that they take
(`height_le_need`), and if they are written with the fewest parentheses, these levels are among
those that there are.  With further parentheses their chains may be longer: the tree of
`(x + x) + x` is that of `x + x + x`, but the operators in the parentheses give their levels back.
-/

namespace DeskCheck

/-! ### Height -/

namespace Expr

mutual

/-- The number of operators, elements and sequences that are not empty on the longest path from the
root of the tree. -/
def height : Expr → Nat
  | .index _ inner => inner.height + 1
  | .sequence items => if items.isEmpty then 0 else itemsHeight items + 1
  | .binary _ left right => max left.height right.height + 1
  | .unary _ operand => operand.height + 1
  | _ => 0

/-- The height of the tallest element of a sequence. -/
def itemsHeight : List Expr → Nat
  | [] => 0
  | e :: rest => max e.height (itemsHeight rest)

end

theorem itemsHeight_le_iff {items : List Expr} {n : Nat} :
    itemsHeight items ≤ n ↔ ∀ e ∈ items, e.height ≤ n := by
  induction items with
  | nil => simp [itemsHeight]
  | cons e rest ih => rw [itemsHeight, Nat.max_le, ih, List.forall_mem_cons]

theorem height_sequence_le {items : List Expr} {n : Nat} (h : ∀ e ∈ items, e.height ≤ n) :
    (Expr.sequence items).height ≤ n + 1 := by
  rw [height]
  split
  · exact Nat.zero_le _
  · exact Nat.succ_le_succ (itemsHeight_le_iff.mpr h)

mutual

/-- Whether the tree leans to the right: what stands left of an operator is no taller than the
operators of its chain in front of it and the tree on its right together. -/
def leansRight : Expr → Bool
  | .index _ inner => inner.leansRight
  | .sequence items => itemsLeanRight items
  | .binary op left right =>
    left.height ≤ left.operators op.tier + right.height && left.leansRight && right.leansRight
  | .unary _ operand => operand.leansRight
  | _ => true

/-- Whether all elements of a sequence lean to the right. -/
def itemsLeanRight : List Expr → Bool
  | [] => true
  | e :: rest => e.leansRight && itemsLeanRight rest

end

/-- An element of a sequence takes no more levels than the sequence, and leans to the right if all of
them do. -/
theorem leansRight_of_mem {items : List Expr} (h : itemsLeanRight items = true) {e : Expr}
    (he : e ∈ items) : e.leansRight = true ∧ e.need ≤ itemsNeed items := by
  induction items with
  | nil => cases he
  | cons first rest ih =>
    simp only [itemsLeanRight, Bool.and_eq_true] at h
    rw [itemsNeed]
    rcases List.mem_cons.mp he with rfl | hmem
    · exact ⟨h.1, Nat.le_max_left _ _⟩
    · obtain ⟨hleans, hneed⟩ := ih h.2 hmem
      exact ⟨hleans, Nat.le_trans hneed (Nat.le_max_right _ _)⟩

/-- A tree that leans to the right is no taller than the levels that it takes. -/
theorem height_le_need {e : Expr} (h : e.leansRight = true) : e.height ≤ e.need := by
  induction e with
  | number | text | boolean | name => exact Nat.zero_le _
  | index s inner ih =>
    rw [leansRight] at h
    rw [height, need]
    exact Nat.succ_le_succ (ih h)
  | sequence items ih =>
    rw [leansRight] at h
    rw [height, need]
    split
    · exact Nat.zero_le _
    · refine Nat.succ_le_succ (itemsHeight_le_iff.mpr fun e he => ?_)
      obtain ⟨hleans, hneed⟩ := leansRight_of_mem h he
      exact Nat.le_trans (ih e he hleans) hneed
  | binary op left right _ hright =>
    simp only [leansRight, Bool.and_eq_true, decide_eq_true_eq] at h
    obtain ⟨⟨hfront, -⟩, hleans⟩ := h
    -- the levels count the operators in front of the right operand and then this operand
    have hlast := hright hleans
    rw [height, need]
    omega
  | unary op operand ih =>
    rw [leansRight] at h
    have hoperand := ih h
    rw [height, need]
    omega

end Expr

/-- The number of tiers of chains from a tier on. -/
def Tier.chains : Tier → Nat
  | .or => 5
  | .and => 4
  | .not | .comparison => 3
  | .additive => 2
  | .multiplicative => 1
  | .unary | .atom => 0

namespace Parse

/-- The height of the tallest atom for a number of levels: around the tallest expression that takes
one level less there is a bracket. -/
def tallestAtom : Nat → Nat
  | 0 => 0
  | levels + 1 => tallestAtom levels + Tier.or.chains * levels + 1

/-- The height of the tallest expression of a tier for a number of levels. -/
def tallest (t : Tier) (levels : Nat) : Nat := tallestAtom levels + t.chains * levels

section Tallest

variable (t : Tier) (levels : Nat)

theorem tallest_atom : tallest .atom levels = tallestAtom levels := by simp [tallest, Tier.chains]

theorem tallest_binary (op : BinaryOp) :
    tallest op.tier levels = tallest op.tier.next levels + levels := by
  have hchains : op.tier.chains = op.tier.next.chains + 1 := by cases op <;> rfl
  rw [tallest, tallest, hchains, Nat.succ_mul, Nat.add_assoc]

theorem tallest_unary (op : UnaryOp) : tallest op.tier levels = tallest op.tier.next levels := by
  have hchains : op.tier.chains = op.tier.next.chains := by cases op <;> rfl
  rw [tallest, tallest, hchains]

theorem tallestAtom_le : tallestAtom levels ≤ tallest t levels := Nat.le_add_right _ _

/-- One more level has room for a node above everything that there is with one level less. -/
theorem tallest_lt : tallest t levels < tallestAtom (levels + 1) := by
  have hchains : t.chains ≤ Tier.or.chains := by cases t <;> decide
  have hle := Nat.mul_le_mul_right levels hchains
  rw [tallest, tallestAtom]
  omega

theorem tallest_mono : tallest t levels ≤ tallest t (levels + 1) :=
  Nat.le_trans (Nat.le_of_lt (tallest_lt t levels)) (tallestAtom_le t _)

end Tallest

/-! ### What a layer reads is low enough -/

/-- What the parser reads has at most the height `n`. -/
def Low (n : Nat) (parser : Parser Expr) : Prop :=
  ∀ ts e rest, parser ts = .ok (e, rest) → e.height ≤ n

/-- The parts of a layer read nothing that is too tall for a number of levels; the operators of a
chain stand above its first operand. -/
structure Layer.Low (layer : Layer) (levels : Nat) : Prop where
  tier : ∀ t, Parse.Low (tallest t levels) (layer.tier t)
  chain : ∀ (op : BinaryOp) left,
    Parse.Low (max left.height (tallest op.tier.next levels) + levels) (layer.chain op.tier left)

theorem low_items {n : Nat} {item : Parser Expr} (h : Low n item) {commas : Nat}
    {ts rest : List Token} {es : List Expr} (hok : items item commas ts = .ok (es, rest)) :
    ∀ e ∈ es, e.height ≤ n := by
  induction commas generalizing ts es with
  | zero =>
    obtain ⟨⟨first, ts'⟩, hfirst, hok⟩ := exists_of_bind_eq_ok hok
    cases hok
    exact List.forall_mem_singleton.mpr (h ts first rest hfirst)
  | succ commas ih =>
    obtain ⟨⟨first, ts'⟩, hfirst, hok⟩ := exists_of_bind_eq_ok hok
    dsimp only at hok
    split at hok
    · next ts'' =>
      obtain ⟨⟨others, rest'⟩, hothers, hok⟩ := exists_of_bind_eq_ok hok
      cases hok
      exact List.forall_mem_cons.mpr ⟨h ts first _ hfirst, ih hothers⟩
    · cases hok
      exact List.forall_mem_singleton.mpr (h ts first _ hfirst)

section Layer

variable {b : Option Layer} {levels : Nat}
  (hb : ∀ layer, b = some layer → ∃ m, levels = m + 1 ∧ layer.Low m)
include hb

theorem low_chain (op : BinaryOp) (left : Expr) :
    Low (max left.height (tallest op.tier.next levels) + levels) (chain b op.tier left) := by
  intro ts e rest hok
  have hend : left.height ≤ max left.height (tallest op.tier.next levels) + levels := by omega
  cases ts with
  | nil =>
    cases hok
    exact hend
  | cons tok ts =>
    rcases hop : op.tier.operator? tok with _ | op'
    · simp only [chain, hop] at hok
      cases hok
      exact hend
    · simp only [chain, hop] at hok
      obtain ⟨layer, hlayer, hok⟩ := exists_of_deeper_eq_ok hok
      obtain ⟨⟨right, ts'⟩, hright, hok⟩ := exists_of_bind_eq_ok hok
      obtain ⟨m, rfl, hlow⟩ := hb layer hlayer
      -- the rest of the chain adds one node less to a tree that is one node taller
      have hoperand := hlow.tier op.tier.next ts right ts' hright
      have hrest := hlow.chain op (.binary op' left right) ts' e rest hok
      have hmono := tallest_mono op.tier.next m
      rw [Expr.height] at hrest
      omega

theorem low_chained (op : BinaryOp) {operand : Parser Expr}
    (h : Low (tallest op.tier.next levels) operand) :
    Low (tallest op.tier levels) (chained b op.tier operand) := by
  intro ts e rest hok
  obtain ⟨⟨left, ts'⟩, hleft, hok⟩ := exists_of_bind_eq_ok hok
  have hfirst := h ts left ts' hleft
  have hchain := low_chain hb op left ts' e rest hok
  rw [Nat.max_eq_right hfirst] at hchain
  rwa [tallest_binary]

theorem low_prefixed (op : UnaryOp) {otherwise : Parser Expr}
    (h : Low (tallest op.tier.next levels) otherwise) :
    Low (tallest op.tier levels) (prefixed b op.token op op.tier otherwise) := by
  intro ts e rest hok
  rw [← tallest_unary] at h
  cases ts with
  | nil => exact h [] e rest hok
  | cons tok ts =>
    by_cases htok : tok = op.token
    · subst htok
      simp only [prefixed, if_true] at hok
      obtain ⟨layer, hlayer, hok⟩ := exists_of_deeper_eq_ok hok
      obtain ⟨⟨operand, ts'⟩, hoperand, hok⟩ := exists_of_bind_eq_ok hok
      cases hok
      obtain ⟨m, rfl, hlow⟩ := hb layer hlayer
      have hinner := hlow.tier op.tier ts operand ts' hoperand
      have hroom := Nat.lt_of_le_of_lt hinner (tallest_lt op.tier m)
      rw [Expr.height]
      exact Nat.le_trans hroom (tallestAtom_le op.tier (m + 1))
    · simp only [prefixed, if_neg htok] at hok
      exact h _ e rest hok

theorem low_atom : Low (tallest .atom levels) (atom b) := by
  intro ts e rest hok
  rw [tallest_atom]
  unfold atom at hok
  split at hok
  case h_1 => cases hok
  case h_2 n ts => cases hok; exact Nat.zero_le _
  case h_3 s ts => cases hok; exact Nat.zero_le _
  case h_4 ts => cases hok; exact Nat.zero_le _
  case h_5 ts => cases hok; exact Nat.zero_le _
  case h_6 ts =>
    -- parentheses take a level, but leave no node in the tree
    obtain ⟨layer, hlayer, hok⟩ := exists_of_deeper_eq_ok hok
    obtain ⟨⟨inner, ts'⟩, hinner, hok⟩ := exists_of_bind_eq_ok hok
    obtain ⟨⟨⟨⟩, rest'⟩, -, hok⟩ := exists_of_bind_eq_ok hok
    cases hok
    obtain ⟨m, rfl, hlow⟩ := hb layer hlayer
    exact Nat.le_of_lt (Nat.lt_of_le_of_lt (hlow.tier .or ts _ ts' hinner) (tallest_lt .or m))
  case h_7 ts => cases hok; exact Nat.zero_le _
  case h_8 ts _ =>
    obtain ⟨layer, hlayer, hok⟩ := exists_of_deeper_eq_ok hok
    obtain ⟨⟨elements, ts'⟩, helements, hok⟩ := exists_of_bind_eq_ok hok
    obtain ⟨⟨⟨⟩, rest'⟩, -, hok⟩ := exists_of_bind_eq_ok hok
    cases hok
    obtain ⟨m, rfl, hlow⟩ := hb layer hlayer
    exact Nat.le_trans (Expr.height_sequence_le (low_items (hlow.tier .or) helements))
      (tallest_lt .or m)
  case h_9 name ts =>
    obtain ⟨layer, hlayer, hok⟩ := exists_of_deeper_eq_ok hok
    obtain ⟨⟨inner, ts'⟩, hinner, hok⟩ := exists_of_bind_eq_ok hok
    obtain ⟨⟨⟨⟩, rest'⟩, -, hok⟩ := exists_of_bind_eq_ok hok
    cases hok
    obtain ⟨m, rfl, hlow⟩ := hb layer hlayer
    rw [Expr.height]
    exact Nat.lt_of_le_of_lt (hlow.tier .or ts _ ts' hinner) (tallest_lt .or m)
  case h_10 name ts _ => cases hok; exact Nat.zero_le _
  case h_11 => cases hok

/-- From the atoms down to the tier that binds least. -/
theorem low_above : (Layer.above b).Low levels := by
  have hatom : Low (tallest .atom levels) (atom b) := low_atom hb
  have hunary : Low (tallest .unary levels) (unary b) := low_prefixed hb .neg hatom
  have hmultiplicative : Low (tallest .multiplicative levels) (multiplicative b) :=
    low_chained hb .mul hunary
  have hadditive : Low (tallest .additive levels) (additive b) := low_chained hb .add hmultiplicative
  have hcomparison : Low (tallest .comparison levels) (comparison b) := low_chained hb .eq hadditive
  have hnegation : Low (tallest .not levels) (negation b) := low_prefixed hb .not hcomparison
  have hconjunction : Low (tallest .and levels) (conjunction b) := low_chained hb .and hnegation
  have hdisjunction : Low (tallest .or levels) (disjunction b) := low_chained hb .or hconjunction
  refine ⟨fun t => ?_, fun op left => low_chain hb op left⟩
  cases t with
  | or => exact hdisjunction
  | and => exact hconjunction
  | not => exact hnegation
  | comparison => exact hcomparison
  | additive => exact hadditive
  | multiplicative => exact hmultiplicative
  | unary => exact hunary
  | atom => exact hatom

end Layer

/-- What a layer reads has at most the height of the tallest expressions for its levels. -/
theorem low_ofLevels (levels : Nat) : (Layer.ofLevels levels).Low levels := by
  induction levels with
  | zero => exact low_above nofun
  | succ levels ih => exact low_above fun layer h => ⟨levels, rfl, Option.some.inj h ▸ ih⟩

end Parse

/-! ### The tallest expressions -/

namespace Expr

/-- A chain of an expression and a number of names behind it. -/
def lengthen (op : BinaryOp) (n : Nat) (e : Expr) : Expr :=
  chain e (List.replicate n (op, .variable "x"))

/-- Chains of all five tiers on top of each other. -/
def lengthenAll (n : Nat) (e : Expr) : Expr :=
  lengthen .or n (lengthen .and n (lengthen .eq n (lengthen .add n (lengthen .mul n e))))

/-- An atom with as many brackets as there are levels, and in each bracket the longest chains that
the levels allow there. -/
def stack : Nat → Expr
  | 0 => .variable "x"
  | levels + 1 => .index "xs" (lengthenAll levels (stack levels))

/-- The longest chains on top of this atom. -/
def tower (levels : Nat) : Expr := lengthenAll levels (stack levels)

theorem lengthen_succ (op : BinaryOp) (n : Nat) (e : Expr) :
    lengthen op (n + 1) e = .binary op (lengthen op n e) (.variable "x") := by
  rw [lengthen, List.replicate_succ', chain, List.foldl_concat]
  rfl

theorem height_lengthen (op : BinaryOp) (n : Nat) (e : Expr) :
    (lengthen op n e).height = e.height + n := by
  induction n with
  | zero => rfl
  | succ n ih =>
    have hleaf : (Expr.variable "x").height = 0 := by simp [height]
    rw [lengthen_succ, height, ih, hleaf, Nat.max_zero, Nat.add_assoc]

theorem height_lengthenAll (n : Nat) (e : Expr) :
    (lengthenAll n e).height = e.height + Tier.or.chains * n := by
  simp only [lengthenAll, height_lengthen, Tier.chains]
  omega

theorem height_stack (levels : Nat) : (stack levels).height = Parse.tallestAtom levels := by
  induction levels with
  | zero => rfl
  | succ levels ih => rw [stack, height, height_lengthenAll, ih, Parse.tallestAtom]

theorem height_tower (levels : Nat) : (tower levels).height = Parse.tallest .or levels := by
  rw [tower, height_lengthenAll, height_stack, Parse.tallest]

/-- An expression that may stand as one of tier `t` and takes at most a number of levels. -/
structure Fits (t : Tier) (levels : Nat) (e : Expr) : Prop where
  tier : t.level ≤ e.tier.level
  need : e.need ≤ levels

/-- A chain on top of an expression that binds more tightly. -/
theorem Fits.lengthen {t : Tier} {levels : Nat} {e : Expr} (h : e.Fits t levels) (op : BinaryOp)
    (htighter : op.tier.level < t.level) : (lengthen op levels e).Fits op.tier levels := by
  have hlt := Nat.lt_of_lt_of_le htighter h.tier
  refine ⟨?_, ?_⟩
  · cases levels with
    | zero => exact Nat.le_of_lt hlt
    | succ n =>
      rw [lengthen_succ]
      exact Nat.le_refl _
  · have hchain : (Expr.lengthen op levels e).needAt op.tier ≤ levels := by
      have hfirst : e.operators op.tier = 0 :=
        operators_eq_zero fun heq => Nat.lt_irrefl _ (heq ▸ hlt)
      refine (needAt_chain hfirst (fun link hlink => ?_) levels).mpr ⟨?_, fun j link hlink => ?_⟩
      · rw [List.eq_of_mem_replicate hlink]
      · rw [needAt_of_le (Nat.le_of_lt hlt)]
        exact h.need
      · -- behind `j` operators a name takes no more levels
        obtain ⟨hj, rfl⟩ := List.getElem?_eq_some_iff.mp hlink
        have hname : (Expr.variable "x").needAt op.tier.next = 0 :=
          needAt_of_le (Tier.level_le_atom _)
        rw [List.length_replicate] at hj
        rw [List.getElem_replicate]
        simp only [hname]
        exact hj
    exact Nat.le_trans (Nat.le_add_right _ _) hchain

theorem Fits.lengthenAll {levels : Nat} {e : Expr} (h : e.Fits .atom levels) :
    (lengthenAll levels e).Fits .or levels := by
  have hmultiplicative := h.lengthen .mul (by decide)
  have hadditive := hmultiplicative.lengthen .add (by decide)
  have hcomparison := hadditive.lengthen .eq (by decide)
  have hconjunction := hcomparison.lengthen .and (by decide)
  exact hconjunction.lengthen .or (by decide)

theorem fits_stack (levels : Nat) : (stack levels).Fits .atom levels := by
  induction levels with
  | zero => exact ⟨Nat.le_refl _, Nat.le_refl _⟩
  | succ levels ih =>
    refine ⟨Nat.le_refl _, ?_⟩
    rw [stack, need]
    exact Nat.succ_le_succ ih.lengthenAll.need

/-- The height of a tree that is read. -/
theorem height_le_of_ofTokens {tokens : List Token} {e : Expr} (h : ofTokens tokens = .ok e) :
    e.height ≤ Parse.tallest .or maxLevels := by
  rw [ofTokens, Parse.front] at h
  split at h
  · next result hresult =>
    cases h
    exact (Parse.low_ofLevels maxLevels).tier .or tokens _ _ hresult
  · cases h

theorem tallest_maxLevels : Parse.tallest .or maxLevels = 10464 := by decide

/-- A tree with the greatest height is read. -/
theorem ofTokens_tower :
    ofTokens (tower maxLevels).tokens = .ok (tower maxLevels) ∧ (tower maxLevels).height = 10464 :=
  ⟨Parse.ofTokens_tokens (fits_stack maxLevels).lengthenAll.need,
    (height_tower maxLevels).trans tallest_maxLevels⟩

/-- **How tall the trees are that are read.**  They have at most a height of 10464; and those that
lean to the right and are written with the fewest parentheses are no taller than there are levels. -/
theorem height_of_ofTokens {tokens : List Token} {e : Expr} (h : ofTokens tokens = .ok e) :
    e.height ≤ 10464 ∧
      (e.leansRight = true → (∃ rest, Parse.Ends .or rest ∧ tokens = e.tokens ++ rest) →
        e.height ≤ maxLevels) := by
  refine ⟨tallest_maxLevels ▸ height_le_of_ofTokens h, ?_⟩
  rintro hleans ⟨rest, hends, rfl⟩
  exact Nat.le_trans (height_le_need hleans) (Parse.need_le_of_ofTokens hends h)

/-- A sum behind as many signs as there are levels.  The signs take all levels, and the operator of
the sum takes one of them again. -/
def signedSum : List Token :=
  List.replicate maxLevels (.mark .minus) ++
    [.number (.ofNat 1), .mark .plus, .number (.ofNat 1)]

theorem exists_signedSum : ∃ e, ofTokens signedSum = .ok e ∧ e.height = maxLevels + 1 := by
  have hheight : (ofTokens signedSum).toOption.map height = some (maxLevels + 1) := by
    decide +kernel
  rcases hread : ofTokens signedSum with _ | e
  · rw [hread] at hheight
    cases hheight
  · rw [hread] at hheight
    exact ⟨e, rfl, Option.some.inj hheight⟩

/-- The sum is among the trees that are taller than there are levels, and the chain with as many
operators as there are levels among those that are not. -/
theorem height_of_ofTokens_sums :
    (∃ e, ofTokens signedSum = .ok e ∧ maxLevels < e.height ∧ e.height ≤ 10464) ∧
      (lengthen .add maxLevels (.variable "x")).height ≤ maxLevels := by
  obtain ⟨e, hread, hheight⟩ := exists_signedSum
  have hleaf : (Expr.variable "x").Fits .atom maxLevels := ⟨Nat.le_refl _, Nat.zero_le _⟩
  have hchain := Parse.ofTokens_tokens (hleaf.lengthen .add (by decide)).need
  refine ⟨⟨e, hread, ?_, (height_of_ofTokens hread).1⟩, (height_of_ofTokens hchain).2 ?_ ?_⟩
  · exact Nat.lt_of_lt_of_eq (Nat.lt_succ_self _) hheight.symm
  · decide +kernel
  · exact ⟨[], ⟨Tier.stops_nil _, nofun⟩, (List.append_nil _).symm⟩

/-- **The levels of nesting do not bound the height.** -/
theorem height_exceeds_levels : ¬ ∀ tokens e, ofTokens tokens = .ok e → e.height ≤ maxLevels := by
  intro hbound
  obtain ⟨e, hread, hheight⟩ := exists_signedSum
  have hle := hbound signedSum e hread
  omega

end Expr
end DeskCheck
