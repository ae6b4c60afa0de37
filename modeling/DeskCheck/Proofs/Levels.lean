import DeskCheck.Proofs.Notation

/-!
# Written expressions are read back

The parser reads the tokens of an expression back if the levels of nesting that these take are among
the levels it has, and goes too deep if they are not; nothing else can happen (`front_tokens`).

`Within` says this of one call: what is answered if the levels suffice.  `Reads` says it of the
tokens of a whole expression of a tier, whatever follows them, and `Starts` of the front of a chain,
behind which the parser goes on with the chain as many levels down as it has passed operators.  Each
rule of the grammar is a lemma by which one `Reads` or `Starts` follows from others, with the
levels that the rule takes; the expression tree puts them together (`readable`).
-/

namespace DeskCheck.Parse

/-! ### Answers within a number of levels -/

/-- The answer is the result if `need` levels are among the `levels` there are, and the error
`tooDeep` if not. -/
def Within {α : Type} (need levels : Nat) (answer result : Except Failure α) : Prop :=
  if need ≤ levels then answer = result else ∃ left, answer = .error ⟨.tooDeep, left⟩

section Within

variable {α β : Type} {need need' levels : Nat}

theorem Within.eq {answer result : Except Failure α} (h : Within need levels answer result)
    (hle : need ≤ levels) : answer = result := by
  rwa [Within, if_pos hle] at h

theorem Within.tooDeep {answer result : Except Failure α} (h : Within need levels answer result)
    (hlt : levels < need) : ∃ left, answer = .error ⟨.tooDeep, left⟩ := by
  rwa [Within, if_neg (Nat.not_le_of_lt hlt)] at h

theorem within_refl (result : Except Failure α) : Within 0 levels result result := by
  rw [Within, if_pos (Nat.zero_le _)]

theorem Within.trans {answer middle result : Except Failure α} (h : Within need levels answer middle)
    (h' : Within need' levels middle result) : Within (max need need') levels answer result := by
  rcases Nat.lt_or_ge levels need with hlt | hle
  · rw [Within, if_neg (by omega)]
    exact h.tooDeep hlt
  · rw [h.eq hle, Within]
    split
    · exact h'.eq (by omega)
    · exact h'.tooDeep (by omega)

/-- What comes behind a result goes on from it. -/
theorem Within.bind {answer : Except Failure α} {a : α} (h : Within need levels answer (.ok a))
    (f : α → Except Failure β) : Within need levels (answer >>= f) (f a) := by
  rw [Within]
  split
  · next hle => rw [h.eq hle]; rfl
  · next hgt =>
    obtain ⟨left, hleft⟩ := h.tooDeep (Nat.lt_of_not_le hgt)
    exact ⟨left, by rw [hleft]; rfl⟩

/-- Going deeper takes one level. -/
theorem within_deeper {parser : Layer → Parser α} {ts : List Token}
    {result : Except Failure (α × List Token)}
    (h : ∀ m, levels = m + 1 → Within need m (parser (.ofLevels m) ts) result) :
    Within (need + 1) levels (deeper (below levels) parser ts) result := by
  cases levels with
  | zero =>
    rw [Within, if_neg (Nat.not_succ_le_zero _)]
    exact ⟨ts.length, rfl⟩
  | succ m =>
    have hm := h m rfl
    simp only [Within, Nat.succ_le_succ_iff] at hm ⊢
    exact hm

/-- Levels that are counted `passed` levels down. -/
theorem Within.passed {answer result : Except Failure α} {passed : Nat}
    (h : Within (need + 1) (levels - passed) answer result) :
    Within (passed + 1 + need) levels answer result := by
  rw [Within] at h ⊢
  split at h
  · next hle => rwa [if_pos (by omega)]
  · next hgt => rwa [if_neg (by omega)]

end Within

/-! ### Reading the tokens of an expression -/

/-- The tokens behind an expression of a tier neither go on with it nor make an index of it. -/
structure Ends (t : Tier) (rest : List Token) : Prop where
  stops : t.Stops rest
  unindexed : rest.head? ≠ some (.mark .leftBracket)

theorem Ends.mono {t t' : Tier} {rest : List Token} (h : Ends t rest)
    (hle : t.level ≤ t'.level) : Ends t' rest :=
  ⟨h.stops.mono hle, h.unindexed⟩

/-- A token that is neither an operator nor an opening bracket ends the expressions of all tiers. -/
theorem ends_of_ne {tok : Token} (hop : ∀ op : BinaryOp, tok ≠ op.token)
    (hopen : tok ≠ .mark .leftBracket) (t : Tier) (rest : List Token) : Ends t (tok :: rest) :=
  ⟨fun op h => absurd (Option.some.inj h) (hop op), fun h => hopen (Option.some.inj h)⟩

/-- An operator ends the operands of its tier. -/
theorem ends_operator (op : BinaryOp) (rest : List Token) : Ends op.tier.next (op.token :: rest) := by
  refine ⟨fun op' h => ?_, fun h => ?_⟩
  · obtain rfl : op = op' := BinaryOp.token_injective (Option.some.inj h)
    exact Nat.lt_of_lt_of_eq (Nat.lt_succ_self _)
      (Tier.level_next (Tier.binary_ne_atom op)).symm
  · cases op <;> cases h

/-- The tokens are read as the expression `e` of tier `t`, and take `need` levels. -/
def Reads (t : Tier) (ts : List Token) (need : Nat) (e : Expr) : Prop :=
  ∀ levels rest, Ends t rest →
    Within need levels ((Layer.ofLevels levels).tier t (ts ++ rest)) (.ok (e, rest))

/-- The tokens are read as the front `e` of a chain of tier `t`, in which `passed` operators have
been passed; they take `need` levels. -/
def Starts (t : Tier) (ts : List Token) (need passed : Nat) (e : Expr) : Prop :=
  ∀ levels rest, Ends t.next rest →
    Within need levels ((Layer.ofLevels levels).tier t (ts ++ rest))
      (chain (below (levels - passed)) t e rest)

section Rules

variable {t : Tier} {ts ts' : List Token} {need need' passed : Nat} {e e' : Expr}

/-! #### Chains -/

/-- A chain can start with any operand of its tier. -/
theorem Reads.starts (op : BinaryOp) (h : Reads op.tier.next ts need e) :
    Starts op.tier ts need 0 e := by
  intro levels rest hrest
  have hoperand := h levels rest hrest
  rw [ofLevels_eq] at hoperand ⊢
  rw [tier_binary]
  exact hoperand.bind fun r => chain (below levels) op.tier r.1 r.2

/-- One more operator and operand. -/
theorem Starts.join (op : BinaryOp) (h : Starts op.tier ts need passed e)
    (h' : Reads op.tier.next ts' need' e') :
    Starts op.tier (ts ++ op.token :: ts') (max need (passed + 1 + need')) (passed + 1)
      (.binary op e e') := by
  intro levels rest hrest
  have hfront := h levels (op.token :: (ts' ++ rest)) (ends_operator op _)
  rw [chain_operator] at hfront
  rw [List.append_assoc, List.cons_append]
  refine hfront.trans (Within.passed (within_deeper fun m hm => ?_))
  -- one level below the operator, the rest of the chain is read as far down
  have hm' : levels - (passed + 1) = m := by omega
  rw [hm']
  have hoperand := h' m rest hrest
  have hchain : (Layer.ofLevels m).chain = chain (below m) := by rw [ofLevels_eq]; rfl
  rw [← hchain]
  exact hoperand.bind fun r => (Layer.ofLevels m).chain op.tier (.binary op e r.1) r.2

/-- A chain is complete where no operator of its tier follows. -/
theorem Starts.reads (op : BinaryOp) (h : Starts op.tier ts need passed e) :
    Reads op.tier ts need e := by
  intro levels rest hrest
  have hnext : op.tier.level ≤ op.tier.next.level := by cases op <;> decide
  have hfront := h levels rest (hrest.mono hnext)
  rwa [chain_stops _ e hrest.stops] at hfront

/-! #### Prefixes -/

/-- A prefix operator takes one level for its operand. -/
theorem Reads.unary (op : UnaryOp) (h : Reads op.tier ts need e) :
    Reads op.tier (op.token :: ts) (need + 1) (.unary op e) := by
  intro levels rest hrest
  rw [ofLevels_eq, tier_unary, List.cons_append]
  simp only [prefixed, if_true]
  refine within_deeper fun m _ => ?_
  exact (h m rest hrest).bind fun r => .ok (Expr.unary op r.1, r.2)

/-- What is read on the next tier is read on this one, unless a prefix operator of this tier makes
another expression of it. -/
theorem Reads.loosen (h : Reads t.next ts need e)
    (hfront : ∀ op : UnaryOp, op.tier = t → ∃ tok ts', ts = tok :: ts' ∧ tok ≠ op.token) :
    Reads t ts need e := by
  rcases t.cases with ⟨op, rfl⟩ | ⟨op, rfl⟩ | rfl
  · exact (h.starts op).reads op
  · obtain ⟨tok, ts', rfl, hne⟩ := hfront op rfl
    intro levels rest hrest
    have hnext : op.tier.level ≤ op.tier.next.level := by cases op <;> decide
    have hoperand := h levels rest (hrest.mono hnext)
    rw [ofLevels_eq] at hoperand ⊢
    rw [tier_unary]
    simp only [prefixed, List.cons_append, if_neg hne] at hoperand ⊢
    exact hoperand
  · exact h

/-! #### Atoms -/

theorem close_bracket (bracket : Mark) (cause : ParseCause) (ts : List Token) :
    close bracket cause (.mark bracket :: ts) = .ok ((), ts) := by
  simp [close]

/-- A closing bracket or a comma ends the expressions of all tiers. -/
theorem ends_mark {m : Mark} (hm : m = .rightParen ∨ m = .rightBracket ∨ m = .comma) (t : Tier)
    (rest : List Token) : Ends t (.mark m :: rest) := by
  refine ends_of_ne (fun op => ?_) ?_ t rest
  · rcases hm with rfl | rfl | rfl <;> cases op <;> nofun
  · rcases hm with rfl | rfl | rfl <;> nofun

/-- An expression between opening tokens and a closing bracket is an atom, one level down. -/
theorem Reads.enclosed (opening : List Token) {bracket : Mark} {cause : ParseCause}
    (wrap : Expr → Expr) (hbracket : bracket = .rightParen ∨ bracket = .rightBracket)
    (hatom : ∀ b ts, atom b (opening ++ ts) = deeper b (fun layer ts => do
      let (inner, ts) ← layer.tier .or ts
      let ((), ts) ← close bracket cause ts
      return (wrap inner, ts)) ts) (h : Reads .or ts need e) :
    Reads .atom (opening ++ ts ++ [.mark bracket]) (need + 1) (wrap e) := by
  intro levels rest _
  rw [ofLevels_eq, List.append_assoc, List.append_assoc]
  show Within (need + 1) levels (atom (below levels) (opening ++ _)) _
  rw [hatom]
  refine within_deeper fun m _ => ?_
  have hends : Ends .or (.mark bracket :: rest) :=
    ends_mark (by rcases hbracket with h | h <;> simp [h]) _ _
  have hinner := (h m _ hends).bind fun r => do
    let ((), ts) ← close bracket cause r.2
    return (wrap r.1, ts)
  rw [close_bracket] at hinner
  exact hinner

/-- An expression in parentheses. -/
theorem Reads.paren (h : Reads .or ts need e) :
    Reads .atom (.mark .leftParen :: ts ++ [.mark .rightParen]) (need + 1) e :=
  h.enclosed [.mark .leftParen] id (.inl rfl) fun _ _ => rfl

/-- An element of a named sequence. -/
theorem Reads.index (name : String) (h : Reads .or ts need e) :
    Reads .atom (.name name :: .mark .leftBracket :: ts ++ [.mark .rightBracket]) (need + 1)
      (.index name e) :=
  h.enclosed [.name name, .mark .leftBracket] (.index name) (.inr rfl) fun _ _ => rfl

theorem reads_variable (name : String) : Reads .atom [.name name] 0 (.variable name) := by
  intro levels rest hrest
  have hatom : atom (below levels) (.name name :: rest) = .ok (.variable name, rest) := by
    rw [atom]
    rintro ts rfl
    exact hrest.unindexed rfl
  rw [ofLevels_eq]
  exact hatom ▸ within_refl _

/-- A literal is one token and takes no level. -/
theorem reads_literal {tok : Token} (h : ∀ b rest, atom b (tok :: rest) = .ok (e, rest)) :
    Reads .atom [tok] 0 e := by
  intro levels rest _
  rw [ofLevels_eq]
  show Within 0 levels (atom (below levels) (tok :: rest)) (.ok (e, rest))
  rw [h]
  exact within_refl _

/-! #### Sequences -/

/-- What `items` does behind an item: it goes on at a comma. -/
def moreItems {α : Type} (item : Parser α) (commas : Nat) (r : α × List Token) :
    Except Failure (List α × List Token) :=
  match r.2 with
  | .mark .comma :: ts => do
    let (others, ts) ← items item commas ts
    return (r.1 :: others, ts)
  | ts => .ok ([r.1], ts)

/-- The elements of a sequence, which do not nest in one another. -/
theorem within_items {first : Expr} {more : List Expr}
    (h : ∀ e ∈ first :: more, Reads .or e.tokens e.need e) (levels commas : Nat)
    (hcommas : more.length ≤ commas) (rest : List Token) :
    Within (Expr.itemsNeed (first :: more)) levels
      (items ((Layer.ofLevels levels).tier .or) commas
        (Expr.itemsTokens (first :: more) ++ .mark .rightBracket :: rest))
      (.ok (first :: more, .mark .rightBracket :: rest)) := by
  induction more generalizing first commas with
  | nil =>
    have hlast := h first (List.mem_singleton_self _) levels (.mark .rightBracket :: rest)
      (ends_mark (.inr (.inl rfl)) _ _)
    have hneed : Expr.itemsNeed [first] = first.need := by simp [Expr.itemsNeed]
    rw [hneed, Expr.itemsTokens]
    cases commas with
    | zero => exact hlast.bind fun r => .ok ([r.1], r.2)
    | succ commas =>
      exact hlast.bind (moreItems _ commas)
  | cons second more ih =>
    obtain ⟨commas, rfl⟩ : ∃ k, commas = k + 1 := ⟨commas - 1, by simp at hcommas; omega⟩
    have hfirst := h first List.mem_cons_self levels
      (.mark .comma :: (Expr.itemsTokens (second :: more) ++ .mark .rightBracket :: rest))
      (ends_mark (.inr (.inr rfl)) _ _)
    have hothers := ih (fun e he => h e (List.mem_cons_of_mem _ he)) commas
      (Nat.le_of_succ_le_succ hcommas)
    rw [Expr.itemsNeed, Expr.itemsTokens, List.append_assoc]
    exact (hfirst.bind (moreItems _ commas)).trans (hothers.bind fun r => .ok (first :: r.1, r.2))

/-- Every element has a token, so that the tokens are enough commas. -/
theorem length_le_itemsTokens (items : List Expr) :
    items.length ≤ (Expr.itemsTokens items).length := by
  induction items with
  | nil => exact Nat.zero_le _
  | cons first rest ih =>
    obtain ⟨tok, ts, htokens, -⟩ := first.begins_tokens
    cases rest with
    | nil => simp [Expr.itemsTokens, htokens]
    | cons second rest =>
      rw [Expr.itemsTokens, htokens]
      simp only [List.length_cons, List.length_append] at ih ⊢
      omega

theorem atom_sequence (b : Option Layer) {ts : List Token}
    (h : ts.head? ≠ some (.mark .rightBracket)) :
    atom b (.mark .leftBracket :: ts) = deeper b (fun layer ts => do
      let (elements, ts) ← items (layer.tier .or) ts.length ts
      let ((), ts) ← close .rightBracket .unclosedSequence ts
      return (.sequence elements, ts)) ts := by
  rw [atom]
  rintro ts rfl
  exact h rfl

/-- The first token of the elements tells a sequence from the empty one. -/
theorem begins_itemsTokens (first : Expr) (more : List Expr) :
    ∃ tok ts, Expr.itemsTokens (first :: more) = tok :: ts ∧ tok ≠ .mark .rightBracket := by
  obtain ⟨tok, ts, htokens, hbegins⟩ := first.begins_tokens
  cases more with
  | nil => exact ⟨tok, ts, by rw [Expr.itemsTokens, htokens], hbegins.1⟩
  | cons second more =>
    exact ⟨tok, _, by rw [Expr.itemsTokens, htokens, List.cons_append], hbegins.1⟩

theorem reads_sequence {items : List Expr} (h : ∀ e ∈ items, Reads .or e.tokens e.need e) :
    Reads .atom (Expr.sequence items).tokens (Expr.sequence items).need (.sequence items) := by
  cases items with
  | nil => exact fun _ _ _ => ofLevels_eq _ ▸ within_refl _
  | cons first more =>
    intro levels rest _
    have htokens : (Expr.sequence (first :: more)).tokens ++ rest = .mark .leftBracket ::
        (Expr.itemsTokens (first :: more) ++ .mark .rightBracket :: rest) := by
      simp [Expr.tokens]
    rw [htokens, ofLevels_eq]
    show Within (Expr.itemsNeed (first :: more) + 1) levels (atom (below levels) _) _
    rw [atom_sequence]
    case h =>
      obtain ⟨tok, ts, hts, hne⟩ := begins_itemsTokens first more
      simpa [hts] using hne
    refine within_deeper fun m _ => ?_
    have hitems := within_items h m
      (Expr.itemsTokens (first :: more) ++ .mark .rightBracket :: rest).length
      (by have := length_le_itemsTokens (first :: more); simp at this ⊢; omega) rest
    have hclose := hitems.bind fun r => do
      let ((), ts) ← close .rightBracket .unclosedSequence r.2
      return (Expr.sequence r.1, ts)
    rw [close_bracket] at hclose
    exact hclose

end Rules

/-! ### The tokens of every expression -/

/-- Wherever an expression stands, its tokens are read as this expression, and at the front of a
chain as the front of the chain. -/
structure Readable (e : Expr) : Prop where
  reads : ∀ t, Reads t (e.tokensAt t) (e.needAt t) e
  starts : ∀ op : BinaryOp,
    Starts op.tier (e.tokensAt op.tier) (e.needAt op.tier) (e.operators op.tier) e

/-- What is read on the tier `t` is read on all tiers that bind less. -/
theorem Reads.loosen_to {t s : Tier} {ts : List Token} {need : Nat} {e : Expr}
    (h : Reads t ts need e) (hbegins : ∃ tok ts', ts = tok :: ts' ∧ t.Begins tok)
    (hle : s.level ≤ t.level) : Reads s ts need e := by
  obtain ⟨d, hd⟩ := Nat.exists_eq_add_of_le hle
  induction d generalizing s with
  | zero => 
    obtain rfl := Tier.level_injective hd
    exact h
  | succ d ih =>
    have hs : s ≠ .atom := by
      rintro rfl
      have := t.level_le_atom
      omega
    have hnext := Tier.level_next hs
    refine (ih (s := s.next) (by omega) (by omega)).loosen fun op hop => ?_
    obtain ⟨tok, ts', rfl, hbegin⟩ := hbegins
    refine ⟨tok, ts', rfl, fun heq => ?_⟩
    have := hbegin.2 op heq
    rw [hop] at this
    omega

/-- It is enough to read an expression on its own tier. -/
theorem readable_of_own {e : Expr} (hown : Reads e.tier e.tokens e.need e)
    (hchain : ∀ op : BinaryOp, e.tier = op.tier →
      Starts op.tier e.tokens e.need (e.operators op.tier) e) : Readable e := by
  have hreads : ∀ t, Reads t (e.tokensAt t) (e.needAt t) e := by
    intro t
    rcases Nat.lt_or_ge e.tier.level t.level with hlt | hle
    · -- in parentheses it is an atom
      have hor : Reads .or e.tokens e.need e := hown.loosen_to e.begins_tokens (Nat.zero_le _)
      rw [Expr.tokensAt_of_lt hlt, Expr.needAt_of_lt hlt]
      refine hor.paren.loosen_to ⟨_, _, rfl, ?_⟩ t.level_le_atom
      exact Tier.begins_of_ne (by decide) (by intro op; cases op <;> decide) _
    · rw [Expr.tokensAt_of_le hle, Expr.needAt_of_le hle]
      exact hown.loosen_to e.begins_tokens hle
  refine ⟨hreads, fun op => ?_⟩
  by_cases htier : e.tier = op.tier
  · rw [← htier, Expr.tokensAt_self, Expr.needAt_self, htier]
    exact hchain op htier
  · -- an operand: it needs parentheses in the chain where it needs them behind an operator
    have hnext := Expr.isBelow_next htier (Tier.binary_ne_atom op)
    have hoperand := (hreads op.tier.next).starts op
    rw [Expr.tokensAt, Expr.needAt, hnext] at hoperand
    rw [Expr.operators_eq_zero htier]
    exact hoperand

theorem readable (e : Expr) : Readable e := by
  have hatom : ∀ {e : Expr}, e.tier = .atom → Reads .atom e.tokens e.need e → Readable e := by
    intro e htier h
    refine readable_of_own (htier ▸ h) fun op hop => ?_
    exact absurd (htier.symm.trans hop).symm (Tier.binary_ne_atom op)
  induction e with
  | number n => exact hatom rfl (reads_literal fun _ _ => rfl)
  | text s => exact hatom rfl (reads_literal fun _ _ => rfl)
  | boolean b => exact hatom rfl (reads_literal fun _ _ => by cases b <;> rfl)
  | name s => exact hatom rfl (reads_variable s)
  | index s inner ih =>
    have hinner := ih.reads .or
    rw [Expr.tokensAt_or, Expr.needAt_or] at hinner
    refine hatom rfl ?_
    rw [Expr.tokens, Expr.need]
    exact hinner.index s
  | sequence items ih =>
    refine hatom rfl (reads_sequence fun e he => ?_)
    have hitem := (ih e he).reads .or
    rwa [Expr.tokensAt_or, Expr.needAt_or] at hitem
  | binary op left right hleft hright =>
    have hjoined := (hleft.starts op).join op (hright.reads op.tier.next)
    rw [← Expr.tokens_binary, ← Expr.need_binary] at hjoined
    refine readable_of_own (hjoined.reads op) fun op' hop => ?_
    have htier : op.tier = op'.tier := hop
    have hops : (Expr.binary op left right).operators op'.tier = left.operators op.tier + 1 := by
      rw [Expr.operators, if_pos htier, htier]
    rw [hops, ← htier]
    exact hjoined
  | unary op operand ih =>
    have hown := (ih.reads op.tier).unary op
    rw [← Expr.tokens_unary, ← Expr.need_unary] at hown
    exact readable_of_own hown fun op' hop => absurd hop.symm (Tier.binary_ne_unary op' op)

/-- What is read of the tokens of an expression, and of others behind them with which it ends. -/
theorem within_ofLevels (e : Expr) {rest : List Token} (hends : Ends .or rest) (levels : Nat) :
    Within e.need levels ((Layer.ofLevels levels).tier .or (e.tokens ++ rest)) (.ok (e, rest)) := by
  have hread := (readable e).reads .or levels rest hends
  rwa [Expr.tokensAt_or, Expr.needAt_or] at hread

theorem ofTokens_tokens {e : Expr} (h : e.need ≤ maxLevels) : Expr.ofTokens e.tokens = .ok e := by
  have hends : Ends .or [] := ⟨Tier.stops_nil _, nofun⟩
  have hread := within_ofLevels e hends maxLevels
  rw [List.append_nil] at hread
  rw [Expr.ofTokens, front, hread.eq h]
  rfl

/-- If an expression is read where its tokens begin, it takes no more levels than there are. -/
theorem need_le_of_ofTokens {e e' : Expr} {rest : List Token} (hends : Ends .or rest)
    (h : Expr.ofTokens (e.tokens ++ rest) = .ok e') : e.need ≤ maxLevels := by
  refine Nat.le_of_not_lt fun hlt => ?_
  obtain ⟨left, hleft⟩ := (within_ofLevels e hends maxLevels).tooDeep hlt
  rw [Expr.ofTokens, front, hleft] at h
  cases h

/-- **Every expression tree is read back from its tokens, up to exactly the bound on nesting.**  If
the levels that the tree takes are among those there are, all tokens are read and make up this tree;
if not, the tokens are nested too deep. -/
theorem front_tokens (e : Expr) :
    (e.need ≤ maxLevels → front e.tokens = .ok (e, [])) ∧
      (maxLevels < e.need → ∃ position, front e.tokens = .error ⟨.tooDeep, position⟩) := by
  have hread := (readable e).reads .or maxLevels [] ⟨Tier.stops_nil _, nofun⟩
  rw [Expr.tokensAt_or, Expr.needAt_or, List.append_nil] at hread
  constructor
  · intro hle
    rw [front, hread.eq hle]
  · intro hlt
    obtain ⟨left, hleft⟩ := hread.tooDeep hlt
    rw [front, hleft]
    exact ⟨_, rfl⟩

/-- Differences nested on the right, `x - (x - (x - …))`, each with one operator and one pair of
parentheses. -/
def differences : Nat → Expr
  | 0 => .variable "x"
  | k + 1 => .binary .sub (.variable "x") (differences k)

/-- Thirty-one pairs of parentheses and thirty-two operators fit, a bracket around them still fits,
and a prefix operator in front of that does not. -/
theorem front_tokens_differences :
    (Expr.index "xs" (differences 32)).need = maxLevels ∧
      front (Expr.index "xs" (differences 32)).tokens = .ok (.index "xs" (differences 32), []) ∧
      ∃ position, front (Expr.unary .neg (.index "xs" (differences 32))).tokens =
        .error ⟨.tooDeep, position⟩ := by
  have hneed : (Expr.index "xs" (differences 32)).need = maxLevels := by decide +kernel
  refine ⟨hneed, (front_tokens _).1 (Nat.le_of_eq hneed), (front_tokens _).2 ?_⟩
  decide +kernel

end DeskCheck.Parse
