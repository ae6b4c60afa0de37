import DeskCheck.Proofs.Tolerance

/-!
# The parser with a counter of levels

The parser is built along the levels of nesting that are left.  The same parser can be written with
one state: a position in the tokens, and a counter of the levels that have been entered
(`Counted.Calls.body`).  A chain notes the counter at its beginning and sets it back at its end; a
prefix operator and a bracket count up and down again.  Nothing in this form bounds the calls, and a
counter could be counted down too far.

Both are excluded, and the two forms are the same parser.  A call with `left` tokens left on a tier
of level `k` comes to its end within `9 * left + 8 - k` calls inside of each other, where each round
of a loop counts as a call inside of the round before.  It leaves the counter where it was and the
position farther on, or it ends with an error at a position among the tokens; in between the counter
is never below its first value, nor more than one above the bound.  And it answers what the parser by
levels answers on the tokens that are left (`tier_progress`).

`Answers` is this relation of an action of one form to the answer of the other, with one rule for
each way of putting actions together.  If it holds of all calls that are made inside of a call it
holds of the call (`agree_body`), and so it holds of all of them, as far as the calls suffice
(`agree_within`).
-/

namespace DeskCheck.Parse.Counted

/-! ### Actions -/

structure State where
  position : Nat
  /-- The levels that have been entered. -/
  depth : Nat
  /-- The values that the counter of levels has taken, the last one first. -/
  trail : List Nat
deriving DecidableEq, Repr

namespace State

def advance (s : State) : State := { s with position := s.position + 1 }

/-- The counter is set. -/
def count (s : State) (n : Nat) : State := { s with depth := n, trail := n :: s.trail }

end State

/-- An action ends with a result or an error, or there is none: it comes to no end, or counts below
zero. -/
abbrev Act := ExceptT ParseError (StateT State Option)

/-- An action that comes to no end. -/
def stuck {α : Type} : Act α := fun _ => none

/-- One more level, if there may be one more. -/
def descend : Act Unit := fun s =>
  let entered := s.count (s.depth + 1)
  if maxLevels < s.depth + 1 then some (.error ⟨.tooDeep, s.position⟩, entered)
  else some (.ok (), entered)

/-- One level less. -/
def ascend : Act Unit := fun s =>
  match s.depth with
  | 0 => none
  | depth + 1 => some (.ok (), s.count depth)

/-- The counter is set back. -/
def restore (depth : Nat) : Act Unit := fun s => some (.ok (), s.count depth)

section Tokens

variable (tokens : List Token)

/-- The next token. -/
def advance : Act (Option Token) := fun s =>
  match tokens[s.position]? with
  | none => some (.ok none, s)
  | some tok => some (.ok (some tok), s.advance)

/-- Passes over a token, if it is the next one. -/
def accept (tok : Token) : Act Bool := fun s =>
  if tokens[s.position]? = some tok then some (.ok true, s.advance) else some (.ok false, s)

/-- Passes over an operator of a tier, if one is next. -/
def operator (t : Tier) : Act (Option BinaryOp) := fun s =>
  match tokens[s.position]?.bind t.operator? with
  | none => some (.ok none, s)
  | some op => some (.ok (some op), s.advance)

/-- A closing bracket.  At the end of the tokens it may be missing. -/
def close (bracket : Mark) (cause : ParseCause) : Act Unit := do
  let closed ← accept tokens (.mark bracket)
  let s ← get
  if closed ∨ tokens.length ≤ s.position then return () else throw ⟨cause, s.position⟩

/-! ### The functions of the parser -/

/-- The calls that the functions make. -/
structure Calls where
  tier : Tier → Act Expr
  /-- The loop of a chain: its tier, the counter at its beginning, and what has been read of it. -/
  chain : Tier → Nat → Expr → Act Expr
  /-- The loop over the elements of a sequence. -/
  elements : Act (List Expr)

variable (calls : Calls)

/-- What stands in brackets, from behind the opening one. -/
def enclosed {α : Type} (inner : Act α) (wrap : α → Expr) (bracket : Mark) (cause : ParseCause) :
    Act Expr := do
  descend
  let a ← inner
  close tokens bracket cause
  ascend
  return wrap a

/-- What begins with a token, which has been passed over; `position` is where it stands. -/
def atomOf (position : Nat) : Option Token → Act Expr
  | none => throw ⟨.unexpectedEnd, position⟩
  | some (.number n) => return .number n
  | some (.text text) => return .text text
  | some (.keyword .true) => return .boolean true
  | some (.keyword .false) => return .boolean false
  | some (.mark .leftParen) => enclosed tokens (calls.tier .or) id .rightParen .unclosedParen
  | some (.mark .leftBracket) => do
    if ← accept tokens (.mark .rightBracket) then return .sequence []
    else enclosed tokens calls.elements .sequence .rightBracket .unclosedSequence
  | some (.name name) => do
    if ← accept tokens (.mark .leftBracket) then
      enclosed tokens (calls.tier .or) (.index name) .rightBracket .unclosedIndex
    else return .variable name
  | some tok => throw ⟨.unexpected tok, position⟩

/-- The tier of atoms. -/
def atom : Act Expr := do
  let s ← get
  let tok ← advance tokens
  atomOf tokens calls s.position tok

/-- The tier of a prefix operator. -/
def prefixed (op : UnaryOp) : Act Expr := do
  if ← accept tokens op.token then
    descend
    let operand ← calls.tier op.tier
    ascend
    return .unary op operand
  else calls.tier op.tier.next

/-- The tier of a chain. -/
def chained (t : Tier) : Act Expr := do
  let s ← get
  let left ← calls.tier t.next
  calls.chain t s.depth left

/-- One round of a chain. -/
def chainRound (t : Tier) (depth : Nat) (left : Expr) : Act Expr := do
  match ← operator tokens t with
  | none =>
    restore depth
    return left
  | some op =>
    descend
    let right ← calls.tier t.next
    calls.chain t depth (.binary op left right)

/-- One round of the elements of a sequence. -/
def elementsRound : Act (List Expr) := do
  let first ← calls.tier .or
  if ← accept tokens (.mark .comma) then
    let others ← calls.elements
    return first :: others
  else return [first]

/-- The functions of the parser, with the calls that are made in them. -/
def Calls.body : Calls where
  tier
    | .not => prefixed tokens calls .not
    | .unary => prefixed tokens calls .neg
    | .atom => atom tokens calls
    | t => chained calls t
  chain := chainRound tokens calls
  elements := elementsRound tokens calls

/-- The functions with a number of calls inside of each other. -/
def within : Nat → Calls
  | 0 => ⟨fun _ => stuck, fun _ _ _ => stuck, stuck⟩
  | n + 1 => (within n).body tokens

end Tokens

/-! ### The counter along an action -/

variable {α β : Type} {tokens ts : List Token} {s s' s'' : State} {floor depth n : Nat}

/-- From one state to a later one the counter was set to values that are not below the floor, and at
most one above the bound. -/
def Stays (floor : Nat) (s s' : State) : Prop :=
  ∃ during, s'.trail = during ++ s.trail ∧ ∀ n ∈ during, floor ≤ n ∧ n ≤ maxLevels + 1

theorem stays_of_trail_eq (h : s'.trail = s.trail) : Stays floor s s' :=
  ⟨[], h, fun _ hn => absurd hn List.not_mem_nil⟩

theorem stays_count (hfloor : floor ≤ n) (hn : n ≤ maxLevels + 1) : Stays floor s (s.count n) :=
  ⟨[n], rfl, List.forall_mem_singleton.mpr ⟨hfloor, hn⟩⟩

theorem Stays.trans (h : Stays floor s s') (h' : Stays floor s' s'') : Stays floor s s'' := by
  obtain ⟨during, htrail, hduring⟩ := h
  obtain ⟨during', htrail', hduring'⟩ := h'
  refine ⟨during' ++ during, by rw [htrail', htrail, List.append_assoc], fun n hn => ?_⟩
  rcases List.mem_append.mp hn with hn | hn
  · exact hduring' n hn
  · exact hduring n hn

theorem Stays.mono {floor' : Nat} (h : Stays floor' s s') (hle : floor ≤ floor') :
    Stays floor s s' := by
  obtain ⟨during, htrail, hduring⟩ := h
  exact ⟨during, htrail, fun n hn => ⟨Nat.le_trans hle (hduring n hn).1, (hduring n hn).2⟩⟩

/-! ### Answers of the two forms -/

/-- The result of an action that begins among the tokens is the answer of a parser on the tokens that
are left; behind it the counter is at `depth`. -/
inductive Agrees (tokens : List Token) (depth : Nat) :
    Except Failure (α × List Token) → Except ParseError α → State → Prop
  | ok {a : α} {after : State} : after.position ≤ tokens.length → after.depth = depth →
      Agrees tokens depth (.ok (a, tokens.drop after.position)) (.ok a) after
  | error {cause : ParseCause} {position : Nat} {after : State} : position ≤ tokens.length →
      Agrees tokens depth (.error ⟨cause, tokens.length - position⟩) (.error ⟨cause, position⟩) after

/-- The action ends, with the counter above the floor on the way, and agrees with an answer. -/
def Answers (tokens : List Token) (floor depth : Nat) (act : Act α) (s : State)
    (answer : Except Failure (α × List Token)) : Prop :=
  ∃ r after, act s = some (r, after) ∧ Stays floor s after ∧ Agrees tokens depth answer r after

section Rules

variable {act : Act α} {f : α → Act β} {answer : Except Failure (α × List Token)} {a : α}

theorem bind_of_ok (h : act s = some (.ok a, s')) : (act >>= f) s = f a s' := by
  show (act s).bind _ = _
  rw [h]
  rfl

theorem bind_of_error {e : ParseError} (h : act s = some (.error e, s')) :
    (act >>= f) s = some (.error e, s') := by
  show (act s).bind _ = _
  rw [h]
  rfl

theorem answers_pure (hposition : s.position ≤ tokens.length) (hdepth : s.depth = depth) (a : α) :
    Answers tokens floor depth (pure a) s (.ok (a, tokens.drop s.position)) :=
  ⟨.ok a, s, rfl, stays_of_trail_eq rfl, .ok hposition hdepth⟩

theorem answers_throw {position : Nat} (hposition : position ≤ tokens.length) (cause : ParseCause) :
    Answers tokens floor depth (throw ⟨cause, position⟩ : Act α) s
      (.error ⟨cause, tokens.length - position⟩) :=
  ⟨.error ⟨cause, position⟩, s, rfl, stays_of_trail_eq rfl, .error hposition⟩

theorem Answers.mono {floor' : Nat} (h : Answers tokens floor' depth act s answer)
    (hle : floor ≤ floor') : Answers tokens floor depth act s answer := by
  obtain ⟨r, after, hrun, hstays, hagrees⟩ := h
  exact ⟨r, after, hrun, hstays.mono hle, hagrees⟩

/-- An action that takes one step, and what comes behind it. -/
theorem Answers.behind {answer : Except Failure (β × List Token)} (hrun : act s = some (.ok a, s'))
    (hstays : Stays floor s s') (h : Answers tokens floor depth (f a) s' answer) :
    Answers tokens floor depth (act >>= f) s answer := by
  obtain ⟨r, after, hafter, hstays', hagrees⟩ := h
  exact ⟨r, after, (bind_of_ok hrun).trans hafter, hstays.trans hstays', hagrees⟩

/-- What comes behind a result goes on from it, in both forms. -/
theorem Answers.bind {middle : Nat} {g : α × List Token → Except Failure (β × List Token)}
    (h : Answers tokens floor middle act s answer)
    (hf : ∀ a s', s'.position ≤ tokens.length → s'.depth = middle →
      answer = .ok (a, tokens.drop s'.position) →
        Answers tokens floor depth (f a) s' (g (a, tokens.drop s'.position))) :
    Answers tokens floor depth (act >>= f) s (answer >>= g) := by
  obtain ⟨r, after, hrun, hstays, hagrees⟩ := h
  cases hagrees with
  | ok hposition hdepth => exact (hf _ after hposition hdepth rfl).behind hrun hstays
  | error hposition => exact ⟨_, after, bind_of_error hrun, hstays, .error hposition⟩

end Rules

/-! ### Steps -/

/-- The tokens that are left behind the next one. -/
theorem drop_eq_cons {p : Nat} {tok : Token} (h : tokens.drop p = tok :: ts) :
    tokens[p]? = some tok ∧ tokens.drop (p + 1) = ts ∧ p < tokens.length ∧
      ts.length + 1 = tokens.length - p := by
  have hget : tokens[p]? = some tok := by
    rw [← List.head?_drop, h]
    rfl
  have hdrop : tokens.drop (p + 1) = ts := by
    rw [← List.tail_drop, h]
    rfl
  have hlength : ts.length + 1 = tokens.length - p := by
    rw [← List.length_drop, h]
    rfl
  exact ⟨hget, hdrop, (List.getElem?_eq_some_iff.mp hget).1, hlength⟩

/-! #### Rules for single actions -/

section Actions

variable {answer : Except Failure (β × List Token)} {tok : Token}

theorem answers_get {f : State → Act β} (h : Answers tokens floor depth (f s) s answer) :
    Answers tokens floor depth (get >>= f) s answer :=
  h.behind rfl (stays_of_trail_eq rfl)

theorem answers_restore {f : Unit → Act β} (hfloor : floor ≤ n) (hn : n ≤ maxLevels + 1)
    (h : Answers tokens floor depth (f ()) (s.count n) answer) :
    Answers tokens floor depth (restore n >>= f) s answer :=
  h.behind rfl (stays_count hfloor hn)

theorem answers_accept {f : Bool → Act β} (hts : tokens.drop s.position = tok :: ts)
    (h : Answers tokens floor depth (f true) s.advance answer) :
    Answers tokens floor depth (accept tokens tok >>= f) s answer := by
  have hrun : accept tokens tok s = some (.ok true, s.advance) := if_pos (drop_eq_cons hts).1
  exact h.behind hrun (stays_of_trail_eq rfl)

theorem answers_accept_other {f : Bool → Act β} (hts : ∀ ts, tokens.drop s.position ≠ tok :: ts)
    (h : Answers tokens floor depth (f false) s answer) :
    Answers tokens floor depth (accept tokens tok >>= f) s answer := by
  have hrun : accept tokens tok s = some (.ok false, s) := by
    refine if_neg fun hget => ?_
    rw [← List.head?_drop] at hget
    obtain ⟨ts, heq⟩ := List.head?_eq_some_iff.mp hget
    exact hts ts heq
  exact h.behind hrun (stays_of_trail_eq rfl)

theorem answers_advance {f : Option Token → Act β} (hget : tokens[s.position]? = some tok)
    (h : Answers tokens floor depth (f (some tok)) s.advance answer) :
    Answers tokens floor depth (advance tokens >>= f) s answer := by
  have hrun : advance tokens s = some (.ok (some tok), s.advance) := by rw [advance, hget]
  exact h.behind hrun (stays_of_trail_eq rfl)

theorem answers_advance_end {f : Option Token → Act β} (hget : tokens[s.position]? = none)
    (h : Answers tokens floor depth (f none) s answer) :
    Answers tokens floor depth (advance tokens >>= f) s answer := by
  have hrun : advance tokens s = some (.ok none, s) := by rw [advance, hget]
  exact h.behind hrun (stays_of_trail_eq rfl)

theorem answers_operator {f : Option BinaryOp → Act β} {t : Tier} {op : BinaryOp}
    (hop : tokens[s.position]?.bind t.operator? = some op)
    (h : Answers tokens floor depth (f (some op)) s.advance answer) :
    Answers tokens floor depth (operator tokens t >>= f) s answer := by
  have hrun : operator tokens t s = some (.ok (some op), s.advance) := by rw [operator, hop]
  exact h.behind hrun (stays_of_trail_eq rfl)

theorem answers_operator_none {f : Option BinaryOp → Act β} {t : Tier}
    (hop : tokens[s.position]?.bind t.operator? = none)
    (h : Answers tokens floor depth (f none) s answer) :
    Answers tokens floor depth (operator tokens t >>= f) s answer := by
  have hrun : operator tokens t s = some (.ok none, s) := by rw [operator, hop]
  exact h.behind hrun (stays_of_trail_eq rfl)

end Actions

/-- A state among the tokens, with a counter that is within the bound. -/
structure State.Fits (tokens : List Token) (s : State) : Prop where
  position : s.position ≤ tokens.length
  depth : s.depth ≤ maxLevels

/-- Going deeper counts one level in one form, and takes one in the other. -/
theorem answers_descend {f : Unit → Act α} {parser : Layer → Parser α} (hs : s.Fits tokens)
    (hfloor : floor ≤ s.depth)
    (h : (s.count (s.depth + 1)).Fits tokens →
      Answers tokens floor depth (f ()) (s.count (s.depth + 1))
        (parser (.ofLevels (maxLevels - (s.depth + 1))) (tokens.drop s.position))) :
    Answers tokens floor depth (descend >>= f) s
      (deeper (below (maxLevels - s.depth)) parser (tokens.drop s.position)) := by
  have hdepth := hs.depth
  have hstays : Stays floor s (s.count (s.depth + 1)) := stays_count (by omega) (by omega)
  by_cases hlt : maxLevels < s.depth + 1
  · have hnone : maxLevels - s.depth = 0 := by omega
    have hrun : descend s = some (.error ⟨.tooDeep, s.position⟩, s.count (s.depth + 1)) := if_pos hlt
    have hanswer : deeper (below (maxLevels - s.depth)) parser (tokens.drop s.position) =
        .error ⟨.tooDeep, tokens.length - s.position⟩ := by
      rw [hnone, ← List.length_drop]
      rfl
    rw [hanswer]
    exact ⟨_, _, bind_of_error hrun, hstays, .error hs.position⟩
  · have hsome : maxLevels - s.depth = maxLevels - (s.depth + 1) + 1 := by omega
    have hrun : descend s = some (.ok (), s.count (s.depth + 1)) := if_neg hlt
    rw [hsome]
    exact (h ⟨hs.position, by show s.depth + 1 ≤ maxLevels; omega⟩).behind hrun hstays

theorem answers_ascend (hposition : s.position ≤ tokens.length) (hs : s.depth = depth + 1)
    (hdepth : depth ≤ maxLevels) (hfloor : floor ≤ depth) (a : α) :
    Answers tokens floor depth (ascend >>= fun _ => pure a) s (.ok (a, tokens.drop s.position)) := by
  have hrun : ascend s = some (.ok (), s.count depth) := by
    rw [ascend]
    split
    · next heq => rw [heq] at hs; cases hs
    · next heq => rw [heq] at hs; cases hs; rfl
  exact (answers_pure (s := s.count depth) hposition rfl a).behind hrun (stays_count hfloor (by omega))

theorem answers_close (hposition : s.position ≤ tokens.length) (bracket : Mark) (cause : ParseCause) :
    Answers tokens floor s.depth (close tokens bracket cause) s
      (Parse.close bracket cause (tokens.drop s.position)) := by
  rcases hts : tokens.drop s.position with _ | ⟨tok, ts⟩
  · refine answers_accept_other (by rw [hts]; nofun) ?_
    refine answers_get ?_
    rw [if_pos (.inr (List.drop_eq_nil_iff.mp hts))]
    have hpure : Answers tokens floor s.depth (pure ()) s (.ok ((), tokens.drop s.position)) :=
      answers_pure hposition rfl ()
    rwa [hts] at hpure
  · obtain ⟨-, rfl, hlt, hlength⟩ := drop_eq_cons hts
    rw [Parse.close]
    by_cases htok : tok = .mark bracket
    · subst htok
      rw [if_pos rfl]
      refine answers_accept hts ?_
      refine answers_get ?_
      rw [if_pos (.inl rfl)]
      exact answers_pure (s := s.advance) hlt rfl ()
    · have hne : ∀ ts, tokens.drop s.position ≠ .mark bracket :: ts := by
        rw [hts]
        exact fun ts heq => htok (List.cons.inj heq).1
      rw [if_neg htok, hlength]
      refine answers_accept_other hne ?_
      refine answers_get ?_
      rw [if_neg (by simp [hlt])]
      exact answers_throw hposition cause

/-! ### The functions of the parser -/

theorem answers_enclosed {inner : Act α} (inner' : Layer → Parser α) (wrap : α → Expr)
    (bracket : Mark) (cause : ParseCause) (hs : s.Fits tokens)
    (h : (s.count (s.depth + 1)).Fits tokens →
      Answers tokens (s.depth + 1) (s.depth + 1) inner (s.count (s.depth + 1))
        (inner' (.ofLevels (maxLevels - (s.depth + 1))) (tokens.drop s.position))) :
    Answers tokens s.depth s.depth (enclosed tokens inner wrap bracket cause) s
      (deeper (below (maxLevels - s.depth))
        (fun layer => inBrackets (inner' layer) wrap bracket cause) (tokens.drop s.position)) := by
  refine answers_descend hs (Nat.le_refl _) fun hfits => ?_
  refine ((h hfits).mono (Nat.le_succ _)).bind fun a s₁ hposition₁ hdepth₁ _ => ?_
  refine (answers_close hposition₁ bracket cause).bind fun _ s₂ hposition₂ hdepth₂ _ => ?_
  exact answers_ascend hposition₂ (hdepth₂.trans hdepth₁) hs.depth (Nat.le_refl _) (wrap a)

/-- All calls with their tokens agree with the layer of the levels that are left, as far as a number of
calls suffices. -/
structure Calls.Agree (tokens : List Token) (n : Nat) (calls : Calls) : Prop where
  tier : ∀ t (s : State), s.Fits tokens → 9 * (tokens.length - s.position) + (8 - t.level) ≤ n →
    Answers tokens s.depth s.depth (calls.tier t) s
      ((Layer.ofLevels (maxLevels - s.depth)).tier t (tokens.drop s.position))
  /-- A chain ends with the counter at its beginning. -/
  chain : ∀ t depth left (s : State), s.Fits tokens → depth ≤ s.depth →
    9 * (tokens.length - s.position) + 1 ≤ n →
      Answers tokens depth depth (calls.chain t depth left) s
        (Parse.chain (below (maxLevels - s.depth)) t left (tokens.drop s.position))
  elements : ∀ commas (s : State), s.Fits tokens → tokens.length - s.position ≤ commas →
    9 * (tokens.length - s.position) + 9 ≤ n →
      Answers tokens s.depth s.depth calls.elements s
        (items ((Layer.ofLevels (maxLevels - s.depth)).tier .or) commas (tokens.drop s.position))

section Body

variable {calls : Calls} (hcalls : calls.Agree tokens n)
include hcalls

/-- The call of a tier, and what comes behind it farther on. -/
theorem answers_tier {f : Expr → Act β} {g : Expr × List Token → Except Failure (β × List Token)}
    (t : Tier) (hs : s.Fits tokens) (hfloor : floor ≤ s.depth)
    (hn : 9 * (tokens.length - s.position) + (8 - t.level) ≤ n)
    (hf : ∀ e (s' : State), s'.position ≤ tokens.length → s'.depth = s.depth →
      s.position < s'.position →
        Answers tokens floor depth (f e) s' (g (e, tokens.drop s'.position))) :
    Answers tokens floor depth (calls.tier t >>= f) s
      ((Layer.ofLevels (maxLevels - s.depth)).tier t (tokens.drop s.position) >>= g) := by
  refine ((hcalls.tier t s hs hn).mono hfloor).bind fun e s' hposition hdepth hanswer => ?_
  have hlt := ((sound_ofLevels _).tier t).length_lt hanswer
  rw [List.length_drop, List.length_drop] at hlt
  exact hf e s' hposition hdepth (by omega)

theorem answers_prefixed (op : UnaryOp) (hs : s.Fits tokens)
    (hn : 9 * (tokens.length - s.position) + (8 - op.tier.level) ≤ n + 1) :
    Answers tokens s.depth s.depth (prefixed tokens calls op) s
      ((Layer.ofLevels (maxLevels - s.depth)).tier op.tier (tokens.drop s.position)) := by
  have hlevel : op.tier.level < 8 ∧ op.tier.next.level = op.tier.level + 1 := by cases op <;> decide
  -- without the operator it is the call of the next tier
  have hnext := hcalls.tier op.tier.next s hs (by omega)
  rw [ofLevels_eq] at hnext ⊢
  rw [tier_unary]
  rcases hts : tokens.drop s.position with _ | ⟨tok, ts⟩
  · rw [hts] at hnext
    exact answers_accept_other (by rw [hts]; nofun) hnext
  · obtain ⟨-, rfl, hlt, -⟩ := drop_eq_cons hts
    by_cases htok : tok = op.token
    · subst htok
      simp only [Parse.prefixed, if_true]
      refine answers_accept hts ?_
      have hadvance : s.advance.Fits tokens := ⟨hlt, hs.depth⟩
      refine answers_descend hadvance (Nat.le_refl _) fun hfits => ?_
      refine answers_tier hcalls op.tier hfits (Nat.le_succ _) ?_ ?_
      · show 9 * (tokens.length - (s.position + 1)) + _ ≤ n
        omega
      · intro operand s' hposition hdepth _
        exact answers_ascend hposition hdepth hs.depth (Nat.le_refl _) (Expr.unary op operand)
    · have hne : ∀ ts, tokens.drop s.position ≠ op.token :: ts := by
        rw [hts]
        exact fun ts heq => htok (List.cons.inj heq).1
      rw [hts] at hnext
      simp only [Parse.prefixed, if_neg htok]
      exact answers_accept_other hne hnext

theorem answers_chained (op : BinaryOp) (hs : s.Fits tokens)
    (hn : 9 * (tokens.length - s.position) + (8 - op.tier.level) ≤ n + 1) :
    Answers tokens s.depth s.depth (chained calls op.tier) s
      ((Layer.ofLevels (maxLevels - s.depth)).tier op.tier (tokens.drop s.position)) := by
  have hlevel : op.tier.level < 7 ∧ op.tier.next.level = op.tier.level + 1 := by cases op <;> decide
  rw [ofLevels_eq, tier_binary, ← ofLevels_eq]
  refine answers_get ?_
  refine answers_tier hcalls op.tier.next hs (Nat.le_refl _) (by omega) ?_
  intro left s' hposition hdepth _
  have hchain := hcalls.chain op.tier s.depth left s' ⟨hposition, hdepth ▸ hs.depth⟩
    (Nat.le_of_eq hdepth.symm) (by omega)
  rwa [hdepth] at hchain

theorem answers_chainRound (t : Tier) (left : Expr) (hs : s.Fits tokens) (hdepth : depth ≤ s.depth)
    (hn : 9 * (tokens.length - s.position) + 1 ≤ n + 1) :
    Answers tokens depth depth (chainRound tokens calls t depth left) s
      (Parse.chain (below (maxLevels - s.depth)) t left (tokens.drop s.position)) := by
  have hbound := hs.depth
  -- where no operator follows, the counter is set back
  have hend : tokens[s.position]?.bind t.operator? = none →
      Answers tokens depth depth (chainRound tokens calls t depth left) s
        (.ok (left, tokens.drop s.position)) := by
    intro hnone
    refine answers_operator_none hnone ?_
    refine answers_restore (Nat.le_refl _) (by omega) ?_
    exact answers_pure (s := s.count depth) hs.position rfl left
  rcases hts : tokens.drop s.position with _ | ⟨tok, ts⟩
  · have hget : tokens[s.position]? = none :=
      List.getElem?_eq_none_iff.mpr (List.drop_eq_nil_iff.mp hts)
    rw [hts] at hend
    exact hend (by rw [hget]; rfl)
  · obtain ⟨hget, rfl, hlt, -⟩ := drop_eq_cons hts
    rcases hop : t.operator? tok with _ | op
    · rw [hts] at hend
      simp only [Parse.chain, hop]
      exact hend (by rw [hget]; exact hop)
    · simp only [Parse.chain, hop]
      refine answers_operator (by rw [hget]; exact hop) ?_
      have hadvance : s.advance.Fits tokens := ⟨hlt, hs.depth⟩
      refine answers_descend hadvance hdepth fun hfits => ?_
      refine answers_tier hcalls t.next hfits (Nat.le_succ_of_le hdepth) ?_ ?_
      · show 9 * (tokens.length - (s.position + 1)) + _ ≤ n
        omega
      · intro right s' hposition (hdepth' : s'.depth = s.depth + 1)
          (hlt' : s.position + 1 < s'.position)
        have hchain := hcalls.chain t depth (.binary op left right) s'
          ⟨hposition, hdepth' ▸ hfits.depth⟩ (by omega) (by omega)
        rw [hdepth'] at hchain
        rw [ofLevels_eq]
        exact hchain

theorem answers_elementsRound {commas : Nat} (hs : s.Fits tokens)
    (hcommas : tokens.length - s.position ≤ commas)
    (hn : 9 * (tokens.length - s.position) + 9 ≤ n + 1) :
    Answers tokens s.depth s.depth (elementsRound tokens calls) s
      (items ((Layer.ofLevels (maxLevels - s.depth)).tier .or) commas (tokens.drop s.position)) := by
  have hn' : 9 * (tokens.length - s.position) + (8 - Tier.or.level) ≤ n := by
    show _ + 8 ≤ n
    omega
  cases commas with
  | zero =>
    -- an element would be read of no tokens
    refine answers_tier hcalls .or hs (Nat.le_refl _) hn' fun first s' hposition _ hlt => ?_
    omega
  | succ commas =>
    refine answers_tier hcalls .or hs (Nat.le_refl _) hn' fun first s' hposition hdepth hlt => ?_
    show Answers tokens s.depth s.depth _ s' (moreItems _ commas (first, tokens.drop s'.position))
    by_cases hcomma : ∃ ts, tokens.drop s'.position = .mark .comma :: ts
    · obtain ⟨ts, hts⟩ := hcomma
      obtain ⟨-, rfl, hlt', -⟩ := drop_eq_cons hts
      rw [hts]
      refine answers_accept hts ?_
      have hleft : tokens.length - (s'.position + 1) ≤ commas ∧
          9 * (tokens.length - (s'.position + 1)) + 9 ≤ n := by omega
      have hothers := hcalls.elements commas s'.advance ⟨hlt', hdepth ▸ hs.depth⟩ hleft.1 hleft.2
      have hadvance : s'.advance.depth = s.depth := hdepth
      rw [hadvance] at hothers
      exact hothers.bind fun others s'' hposition' hdepth' _ =>
        answers_pure hposition' hdepth' (first :: others)
    · rw [moreItems_of_ne (not_exists.mp hcomma)]
      refine answers_accept_other (not_exists.mp hcomma) ?_
      exact answers_pure hposition hdepth [first]

/-! #### Atoms, from behind their first token -/

/-- The call of the tier that binds least, from behind a token. -/
theorem answers_or (hs : s.Fits tokens) (hn : 9 * (tokens.length - s.position) + 9 ≤ n) :
    Answers tokens s.depth s.depth (calls.tier .or) s
      ((Layer.ofLevels (maxLevels - s.depth)).tier .or (tokens.drop s.position)) :=
  hcalls.tier .or s hs (by show _ + 8 ≤ n; omega)

omit hcalls in
/-- A name that no bracket follows. -/
theorem atom_name (b : Option Layer) (name : String) (h : ∀ ts', ts ≠ .mark .leftBracket :: ts') :
    Parse.atom b (.name name :: ts) = .ok (.variable name, ts) := by
  rw [Parse.atom]
  exact h

theorem answers_name (name : String) (position : Nat) (hs : s.Fits tokens)
    (hn : 9 * (tokens.length - s.position) + 9 ≤ n) :
    Answers tokens s.depth s.depth (atomOf tokens calls position (some (.name name))) s
      (Parse.atom (below (maxLevels - s.depth)) (.name name :: tokens.drop s.position)) := by
  by_cases hopen : ∃ ts, tokens.drop s.position = .mark .leftBracket :: ts
  · obtain ⟨ts, hts⟩ := hopen
    obtain ⟨-, rfl, hlt, -⟩ := drop_eq_cons hts
    rw [hts]
    refine answers_accept hts ?_
    have hadvance : s.advance.Fits tokens := ⟨hlt, hs.depth⟩
    refine answers_enclosed (fun layer => layer.tier .or) (.index name) .rightBracket .unclosedIndex
      hadvance fun hfits => ?_
    exact answers_or hcalls hfits (by show 9 * (tokens.length - (s.position + 1)) + 9 ≤ n; omega)
  · rw [atom_name _ name (not_exists.mp hopen)]
    refine answers_accept_other (not_exists.mp hopen) ?_
    exact answers_pure hs.position rfl (Expr.variable name)

theorem answers_sequence (position : Nat) (hs : s.Fits tokens)
    (hn : 9 * (tokens.length - s.position) + 9 ≤ n) :
    Answers tokens s.depth s.depth (atomOf tokens calls position (some (.mark .leftBracket))) s
      (Parse.atom (below (maxLevels - s.depth)) (.mark .leftBracket :: tokens.drop s.position)) := by
  by_cases hempty : ∃ ts, tokens.drop s.position = .mark .rightBracket :: ts
  · obtain ⟨ts, hts⟩ := hempty
    obtain ⟨-, rfl, hlt, -⟩ := drop_eq_cons hts
    rw [hts]
    refine answers_accept hts ?_
    exact answers_pure (s := s.advance) hlt rfl (Expr.sequence [])
  · have hhead : (tokens.drop s.position).head? ≠ some (.mark .rightBracket) :=
      fun heq => hempty (List.head?_eq_some_iff.mp heq)
    rw [atom_sequence _ hhead]
    refine answers_accept_other (not_exists.mp hempty) ?_
    refine answers_enclosed (fun layer ts => items (layer.tier .or) ts.length ts) .sequence
      .rightBracket .unclosedSequence hs fun hfits => ?_
    exact hcalls.elements _ _ hfits (Nat.le_of_eq List.length_drop.symm) hn

theorem answers_atom (hs : s.Fits tokens) (hn : 9 * (tokens.length - s.position) + 1 ≤ n + 1) :
    Answers tokens s.depth s.depth (atom tokens calls) s
      (Parse.atom (below (maxLevels - s.depth)) (tokens.drop s.position)) := by
  rcases hts : tokens.drop s.position with _ | ⟨tok, ts⟩
  · have hend : tokens.length ≤ s.position := List.drop_eq_nil_iff.mp hts
    have hthrow : Answers tokens s.depth s.depth (throw ⟨.unexpectedEnd, s.position⟩ : Act Expr) s
        (.error ⟨.unexpectedEnd, tokens.length - s.position⟩) := answers_throw hs.position _
    rw [Nat.sub_eq_zero_of_le hend] at hthrow
    exact answers_get (answers_advance_end (List.getElem?_eq_none_iff.mpr hend) hthrow)
  obtain ⟨hget, rfl, hlt, hlength⟩ := drop_eq_cons hts
  refine answers_get (answers_advance hget ?_)
  have hadvance : s.advance.Fits tokens := ⟨hlt, hs.depth⟩
  have hn' : 9 * (tokens.length - s.advance.position) + 9 ≤ n := by
    show 9 * (tokens.length - (s.position + 1)) + 9 ≤ n
    omega
  have hunexpected : Answers tokens s.depth s.depth
      (throw ⟨.unexpected tok, s.position⟩ : Act Expr) s.advance
      (.error ⟨.unexpected tok, (tokens.drop (s.position + 1)).length + 1⟩) := by
    rw [hlength]
    exact answers_throw hs.position (.unexpected tok)
  cases tok with
  | number value => exact answers_pure (s := s.advance) hlt rfl (Expr.number value)
  | text value => exact answers_pure (s := s.advance) hlt rfl (Expr.text value)
  | name name => exact answers_name hcalls name s.position hadvance hn'
  | keyword k =>
    cases k with
    | true => exact answers_pure (s := s.advance) hlt rfl (Expr.boolean true)
    | false => exact answers_pure (s := s.advance) hlt rfl (Expr.boolean false)
    | _ => exact hunexpected
  | mark m =>
    cases m with
    | leftParen =>
      exact answers_enclosed (fun layer => layer.tier .or) id .rightParen .unclosedParen hadvance
        fun hfits => answers_or hcalls hfits hn'
    | leftBracket => exact answers_sequence hcalls s.position hadvance hn'
    | _ => exact hunexpected

/-- If the calls that are made in it agree, so does every call. -/
theorem agree_body : (calls.body tokens).Agree tokens (n + 1) where
  tier := by
    intro t s hs hn
    rcases t.cases with ⟨op, rfl⟩ | ⟨op, rfl⟩ | rfl
    · have hbody : (calls.body tokens).tier op.tier = chained calls op.tier := by cases op <;> rfl
      rw [hbody]
      exact answers_chained hcalls op hs hn
    · have hbody : (calls.body tokens).tier op.tier = prefixed tokens calls op := by cases op <;> rfl
      rw [hbody]
      exact answers_prefixed hcalls op hs hn
    · rw [ofLevels_eq]
      exact answers_atom hcalls hs hn
  chain := fun t _ left _ hs hdepth hn => answers_chainRound hcalls t left hs hdepth hn
  elements := fun _ _ hs hcommas hn => answers_elementsRound hcalls hs hcommas hn

end Body

theorem agree_within (tokens : List Token) (n : Nat) : (within tokens n).Agree tokens n := by
  induction n with
  | zero =>
    -- no call suffices with no calls
    refine ⟨fun t _ _ hn => ?_, fun _ _ _ _ _ _ hn => ?_, fun _ _ _ _ hn => ?_⟩
    · have hlevel := t.level_le_atom
      have hatom : Tier.atom.level = 7 := rfl
      omega
    · omega
    · omega
  | succ n ih => exact agree_body ih

/-- **Every tier comes to its end, farther on or with an error, and leaves the counter where it was.**
This needs no more calls inside of each other than the tokens that are left and the tier allow.  On the
way the counter is never below its first value, so that counting down is always possible, and at most
one above the bound.  What it ends with is what the parser by levels answers. -/
theorem tier_progress (tokens : List Token) (t : Tier) (s : State)
    (hposition : s.position ≤ tokens.length) (hdepth : s.depth ≤ maxLevels) {n : Nat}
    (hn : 9 * (tokens.length - s.position) + (8 - t.level) ≤ n) :
    ∃ r after during, (within tokens n).tier t s = some (r, after) ∧
      after.trail = during ++ s.trail ∧ (∀ d ∈ during, s.depth ≤ d ∧ d ≤ maxLevels + 1) ∧
      ((∃ e, r = .ok e ∧ s.position < after.position ∧ after.position ≤ tokens.length ∧
          after.depth = s.depth ∧
          (Layer.ofLevels (maxLevels - s.depth)).tier t (tokens.drop s.position) =
            .ok (e, tokens.drop after.position)) ∨
        ∃ cause position, r = .error ⟨cause, position⟩ ∧ position ≤ tokens.length ∧
          (Layer.ofLevels (maxLevels - s.depth)).tier t (tokens.drop s.position) =
            .error ⟨cause, tokens.length - position⟩) := by
  obtain ⟨r, after, hrun, ⟨during, htrail, hduring⟩, hagrees⟩ :=
    (agree_within tokens n).tier t s ⟨hposition, hdepth⟩ hn
  refine ⟨r, after, during, hrun, htrail, hduring, ?_⟩
  generalize hanswer : (Layer.ofLevels (maxLevels - s.depth)).tier t (tokens.drop s.position) = answer
    at hagrees
  cases hagrees with
  | ok hafter hdepth' =>
    -- at least one token has been read
    have hlt := ((sound_ofLevels _).tier t).length_lt hanswer
    rw [List.length_drop, List.length_drop] at hlt
    exact .inl ⟨_, rfl, by omega, hafter, hdepth', rfl⟩
  | error hafter => exact .inr ⟨_, _, rfl, hafter, rfl⟩

/-- In the tokens of `-(xs[i`, the index behind the parenthesis takes the last of the levels. -/
theorem tier_progress_unclosed :
    ∃ trail, (within unclosed 28).tier .atom ⟨2, 63, []⟩ =
        some (.ok (.index "xs" (.variable "i")), ⟨5, 63, trail⟩) ∧
      maxLevels ∈ trail ∧ ∀ d ∈ trail, 63 ≤ d ∧ d ≤ maxLevels + 1 := by
  have hread : (within unclosed 28).tier .atom ⟨2, 63, []⟩ =
      some (.ok (.index "xs" (.variable "i")), ⟨5, 63, [63, 64, 64, 64, 64, 64, 64]⟩) := rfl
  obtain ⟨r, after, during, hrun, htrail, hduring, -⟩ :=
    tier_progress unclosed .atom ⟨2, 63, []⟩ (by decide) (by decide) (n := 28) (by decide)
  cases hread.symm.trans hrun
  rw [List.append_nil] at htrail
  subst htrail
  exact ⟨_, hread, by decide, hduring⟩

/-- Where the prefix and the parenthesis in front of it have been entered as well, it is too deep. -/
example : (within unclosed 53).tier .or ⟨0, 62, []⟩ =
    some (.error ⟨.tooDeep, 4⟩, ⟨4, 65, [65, 64, 63]⟩) := rfl

/-- The whole of a list of tokens is read within a number of calls, as the parser by levels reads it. -/
theorem within_eq_ofTokens (tokens : List Token) :
    ∃ after, (within tokens (9 * tokens.length + 8)).tier .or ⟨0, 0, []⟩ =
      some (Expr.ofTokens tokens, after) := by
  obtain ⟨r, after, hrun, -, hagrees⟩ := (agree_within tokens (9 * tokens.length + 8)).tier .or
    ⟨0, 0, []⟩ ⟨Nat.zero_le _, Nat.zero_le _⟩ (by simp [Tier.level])
  refine ⟨after, hrun.trans (congrArg (fun r => some (r, after)) ?_)⟩
  change Agrees tokens 0 ((Layer.ofLevels maxLevels).tier .or tokens) r after at hagrees
  rw [Expr.ofTokens, front]
  generalize (Layer.ofLevels maxLevels).tier .or tokens = answer at hagrees ⊢
  cases hagrees with
  | ok _ _ => rfl
  | error hposition =>
    show _ = Except.error (ParseError.mk _ _)
    rw [Nat.sub_sub_self hposition]

end DeskCheck.Parse.Counted
