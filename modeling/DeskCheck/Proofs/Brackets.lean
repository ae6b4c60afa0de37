import DeskCheck.Proofs.Grammar
import DeskCheck.Proofs.Spelling

/-!
# Three readers of brackets

The search for the assignment sign counts brackets character by character outside of quotes
(`Nesting.step`); it passes over a bracket that closes none.  The scanner makes tokens of the same
brackets, and the grammar asks that they are balanced.

The search and the scanner agree: along every text, the brackets and quotes that the one has seen are
those among the tokens and in the mode of the other (`Nesting.after?_run`).  So where the tokens of
a text are a sentence of the grammar, the count behind the text is the count in front of it
(`nesting?_of_derives`).
-/

namespace DeskCheck

/-! ### Counting characters -/

/-- Where a text has been read to: whether inside of quotes, and how many brackets are open. -/
structure Nesting where
  quoted : Bool
  depth : Nat
deriving DecidableEq, Repr

namespace Nesting

/-- Outside of quotes and brackets. -/
def outside : Nesting := ⟨false, 0⟩

/-- One more character, as the search for the assignment sign counts it. -/
def step (n : Nesting) (c : Char) : Nesting :=
  if c = '"' then { n with quoted := !n.quoted }
  else if n.quoted then n
  else if c = '(' ∨ c = '[' then { n with depth := n.depth + 1 }
  else if c = ')' ∨ c = ']' then { n with depth := n.depth - 1 }
  else n

/-- One more character, which must not be a bracket that closes none. -/
def step? (n : Nesting) (c : Char) : Option Nesting :=
  if n.quoted = false ∧ (c = ')' ∨ c = ']') ∧ n.depth = 0 then none else some (n.step c)

/-- The characters that count, outside of quotes at least. -/
def IsCounted (c : Char) : Prop := c = '"' ∨ (c = '(' ∨ c = '[') ∨ c = ')' ∨ c = ']'

/-- Behind a text, as the search counts. -/
def after (n : Nesting) (text : List Char) : Nesting := text.foldl step n

/-- Behind a text none of whose brackets closes more than is open. -/
def after? (n : Nesting) (text : List Char) : Option Nesting := text.foldlM step? n

variable {n n' : Nesting} {text : List Char} {c : Char} {q q' : Bool} {d d' : Nat}

theorem after_append (n : Nesting) (a b : List Char) : n.after (a ++ b) = (n.after a).after b :=
  List.foldl_append

theorem step_of_not_isCounted (h : ¬ IsCounted c) : n.step c = n := by
  obtain ⟨hquote, hopen, hclose⟩ := by simpa only [IsCounted, not_or] using h
  simp [step, hquote, hopen, hclose]

theorem step?_of_not_isCounted (h : ¬ IsCounted c) : n.step? c = some n := by
  have hclose : ¬ (c = ')' ∨ c = ']') := fun hclose => h (.inr (.inr hclose))
  rw [step?, if_neg fun hrefused => hclose hrefused.2.1, step_of_not_isCounted h]

theorem after_of_not_isCounted (h : ∀ c ∈ text, ¬ IsCounted c) : n.after text = n := by
  induction text with
  | nil => rfl
  | cons c text ih =>
    obtain ⟨hc, htext⟩ := List.forall_mem_cons.mp h
    rw [after, List.foldl_cons, step_of_not_isCounted hc]
    exact ih htext

/-- Inside of more brackets a text is counted in the same way. -/
theorem step_add (h : step? ⟨q, d⟩ c = some ⟨q', d'⟩) (k : Nat) :
    step ⟨q, d + k⟩ c = ⟨q', d' + k⟩ := by
  grind [step?, step]

theorem after_add (h : after? ⟨q, d⟩ text = some ⟨q', d'⟩) (k : Nat) :
    after ⟨q, d + k⟩ text = ⟨q', d' + k⟩ := by
  induction text generalizing q d with
  | nil => cases h; rfl
  | cons c text ih =>
    rw [after?, List.foldlM_cons] at h
    obtain ⟨⟨q₁, d₁⟩, hstep, hrest⟩ := Option.bind_eq_some_iff.mp h
    rw [after, List.foldl_cons, step_add hstep]
    exact ih hrest

end Nesting

namespace Line

/-- A character at which the search does not end is counted. -/
theorem splitFrom_cons (passed : List Char) (n : Nesting) (c : Char) (rest : List Char) :
    splitFrom passed n.quoted n.depth (c :: rest) =
      if c = '=' ∧ n = .outside ∧ (passed.head?).all (fun p => p ∉ ['=', '!', '<', '>']) ∧
          rest.head? ≠ some '=' then some (passed.reverse, rest)
      else splitFrom (c :: passed) (n.step c).quoted (n.step c).depth rest := by
  obtain ⟨quoted, depth⟩ := n
  rw [splitFrom]
  grind [Nesting.step, Nesting.outside]

/-- The search for the assignment sign ends outside of quotes and brackets. -/
theorem splitFrom_eq_some {passed text left right : List Char} {n : Nesting}
    (h : splitFrom passed n.quoted n.depth text = some (left, right)) :
    ∃ front, left = passed.reverse ++ front ∧ n.after front = .outside := by
  induction text generalizing passed n with
  | nil => cases h
  | cons c text ih =>
    rw [splitFrom_cons] at h
    split at h
    · next hassign =>
      cases h
      exact ⟨[], by simp, hassign.2.1⟩
    · obtain ⟨front, rfl, hafter⟩ := ih h
      exact ⟨c :: front, by simp, hafter⟩

end Line

/-! ### Counting tokens -/

namespace Token

/-- The number of open brackets behind one more token, which must not close a bracket that is not
open. -/
def count? (depth : Nat) : Token → Option Nat
  | .mark .leftParen | .mark .leftBracket => some (depth + 1)
  | .mark .rightParen | .mark .rightBracket => if depth = 0 then none else some (depth - 1)
  | _ => some depth

/-- The number of open brackets behind tokens none of which closes more than is open. -/
def nesting? (depth : Nat) (ts : List Token) : Option Nat := ts.foldlM count? depth

variable {depth depth' : Nat} {ts us : List Token} {tok : Token}

theorem nesting?_cons (depth : Nat) (tok : Token) (ts : List Token) :
    nesting? depth (tok :: ts) = (count? depth tok).bind fun d => nesting? d ts :=
  List.foldlM_cons

theorem nesting?_append (depth : Nat) (ts us : List Token) :
    nesting? depth (ts ++ us) = (nesting? depth ts).bind fun d => nesting? d us :=
  List.foldlM_append

theorem count?_of_plain (h : tok.isBracket = false) (depth : Nat) : count? depth tok = some depth := by
  cases tok with
  | mark m => cases m <;> first | rfl | cases h
  | _ => rfl

theorem nesting?_of_plain (h : ∀ tok ∈ ts, tok.isBracket = false) (depth : Nat) :
    nesting? depth ts = some depth := by
  induction ts with
  | nil => rfl
  | cons tok ts ih =>
    obtain ⟨htok, hts⟩ := List.forall_mem_cons.mp h
    rw [nesting?_cons, count?_of_plain htok]
    exact ih hts

/-- Between brackets. -/
theorem nesting?_enclosed {opens closes : Mark} (hopens : opens = .leftParen ∨ opens = .leftBracket)
    (hcloses : closes = .rightParen ∨ closes = .rightBracket)
    (h : nesting? (depth + 1) ts = some (depth + 1)) :
    nesting? depth (.mark opens :: (ts ++ [.mark closes])) = some depth := by
  have hopen : count? depth (.mark opens) = some (depth + 1) := by
    rcases hopens with rfl | rfl <;> rfl
  have hclose : count? (depth + 1) (.mark closes) = some depth := by
    rcases hcloses with rfl | rfl <;> rfl
  rw [nesting?_cons, hopen, Option.bind_some, nesting?_append, h, Option.bind_some, nesting?_cons,
    hclose]
  rfl

/-- A row of closing brackets closes as many as it has. -/
theorem depth_eq_of_closers (h : ∀ tok ∈ ts, Parse.IsCloser tok)
    (hts : nesting? depth ts = some depth') : depth = depth' + ts.length := by
  induction ts generalizing depth with
  | nil => cases hts; rfl
  | cons tok ts ih =>
    obtain ⟨htok, hmore⟩ := List.forall_mem_cons.mp h
    have hcount : count? depth tok = if depth = 0 then none else some (depth - 1) := by
      rcases htok with rfl | rfl <;> rfl
    rw [nesting?_cons, hcount] at hts
    split at hts
    · cases hts
    · have hdepth := ih hmore hts
      rw [List.length_cons]
      omega

end Token

/-- Between rows with balanced brackets there may be commas. -/
theorem nesting?_intercalate {rows : List (List Token)} {depth : Nat}
    (h : ∀ ts ∈ rows, Token.nesting? depth ts = some depth) :
    Token.nesting? depth ([.mark .comma].intercalate rows) = some depth := by
  induction rows with
  | nil => rfl
  | cons ts rows ih =>
    obtain ⟨hts, hrows⟩ := List.forall_mem_cons.mp h
    cases rows with
    | nil =>
      rw [List.intercalate_singleton]
      exact hts
    | cons us rows =>
      rw [List.intercalate_cons_cons, List.append_assoc, Token.nesting?_append, hts,
        Option.bind_some]
      exact ih hrows

/-- The brackets of a sentence are balanced. -/
theorem nesting?_of_derives {t : Tier} {ts : List Token} {e : Expr} (h : Derives t ts e)
    (depth : Nat) : Token.nesting? depth ts = some depth := by
  induction h generalizing depth with
  | paren _ ih => exact Token.nesting?_enclosed (.inl rfl) (.inl rfl) (ih _)
  | sequence hne _ ih =>
    refine Token.nesting?_enclosed (.inr rfl) (.inr rfl) (nesting?_intercalate fun ts hts => ?_)
    obtain ⟨part, hpart, rfl⟩ := List.mem_map.mp hts
    exact ih part hpart _
  | index name _ ih => exact Token.nesting?_enclosed (.inr rfl) (.inr rfl) (ih _)
  | unary op _ ih =>
    have hop : Token.count? depth op.token = some depth := by cases op <;> rfl
    rw [Token.nesting?_cons, hop]
    exact ih depth
  | binary op _ _ ihl ihr =>
    have hop : Token.count? depth op.token = some depth := by cases op <;> rfl
    rw [Token.nesting?_append, ihl, Option.bind_some, Token.nesting?_cons, hop]
    exact ihr depth
  | operand t _ ih => exact ih depth
  | _ => rfl

/-! ### The search and the scanner -/

namespace Token

/-- Whether the scanner is inside of quotes. -/
def Mode.isText : Mode → Bool
  | .text _ => true
  | _ => false

theorem not_isCounted_of_isWordChar {c : Char} (h : isWordChar c = true) :
    ¬ Nesting.IsCounted c := by
  rintro (rfl | (rfl | rfl) | rfl | rfl) <;> exact absurd h (by decide)

/-- What a mode leaves behind is no bracket. -/
theorem Mode.close_plain (mode : Mode) : ∀ tok ∈ mode.close, tok.isBracket = false := by
  have hword : ∀ word, (ofWord word).isBracket = false := by
    intro word
    rw [ofWord]
    split <;> rfl
  cases mode with
  | between => exact fun _ h => absurd h List.not_mem_nil
  | word read => exact List.forall_mem_singleton.mpr (hword _)
  | number read pointed => exact List.forall_mem_singleton.mpr rfl
  | text read => exact List.forall_mem_singleton.mpr rfl
  | opening o => cases o <;> decide

/-- A mark that is no bracket comes of a character that is none. -/
theorem lone?_plain {c : Char} {m : Mark} (h : lone? c = some m)
    (hc : ¬ Nesting.IsCounted c) : (Token.mark m).isBracket = false := by
  unfold lone? at h
  split at h <;> cases h <;> first | rfl | exact absurd (by simp [Nesting.IsCounted]) hc

/-- A character that is no quote and no bracket begins neither a text nor a bracket. -/
theorem begin_plain {c : Char} (hc : ¬ Nesting.IsCounted c) :
    (∀ tok ∈ (begin c).1, tok.isBracket = false) ∧ (begin c).2.isText = false := by
  have hnone : ∀ tok ∈ ([] : List Token), tok.isBracket = false := fun _ h => absurd h List.not_mem_nil
  have hquote : c ≠ '"' := fun hquote => hc (.inl hquote)
  rw [begin, if_neg hquote]
  split
  · exact ⟨hnone, rfl⟩
  · split
    · exact ⟨hnone, rfl⟩
    · split
      · exact ⟨hnone, rfl⟩
      · split
        · next m hm => exact ⟨List.forall_mem_singleton.mpr (lone?_plain hm hc), rfl⟩
        · exact ⟨hnone, rfl⟩

/-- The transition on a character that begins something new counts it. -/
theorem step?_begin (depth : Nat) (c : Char) :
    Nesting.step? ⟨false, depth⟩ c =
      (nesting? depth (begin c).1).map fun d => ⟨(begin c).2.isText, d⟩ := by
  by_cases hc : Nesting.IsCounted c
  · rcases hc with rfl | (rfl | rfl) | rfl | rfl
    · rfl
    · rfl
    · rfl
    · cases depth <;> rfl
    · cases depth <;> rfl
  · obtain ⟨hplain, hmode⟩ := begin_plain hc
    rw [Nesting.step?_of_not_isCounted hc, nesting?_of_plain hplain, hmode]
    rfl

/-- Every transition counts its character. -/
theorem step?_advance (mode : Mode) (depth : Nat) (c : Char) :
    Nesting.step? ⟨mode.isText, depth⟩ c =
      (nesting? depth (advance mode c).1).map fun d => ⟨(advance mode c).2.isText, d⟩ := by
  -- a mode that is not continued leaves no bracket behind
  have hclose : nesting? depth (mode.close ++ (begin c).1) = nesting? depth (begin c).1 := by
    rw [nesting?_append, nesting?_of_plain mode.close_plain, Option.bind_some]
  cases mode with
  | between => exact step?_begin depth c
  | text read =>
    rw [advance]
    split
    · next hquote => subst hquote; rfl
    · next hquote => simp [Nesting.step?, Nesting.step, Mode.isText, nesting?, hquote]
  | word read =>
    rw [advance]
    split
    · next hword => exact Nesting.step?_of_not_isCounted (not_isCounted_of_isWordChar hword)
    · dsimp only
      rw [hclose]
      exact step?_begin depth c
  | number read pointed =>
    rw [advance]
    split
    · next hdigit =>
      have hword : isWordChar c = true := by simp [isWordChar, Char.isAlphanum, hdigit]
      exact Nesting.step?_of_not_isCounted (not_isCounted_of_isWordChar hword)
    · split
      · next hpoint => rw [hpoint.1]; rfl
      · dsimp only
        rw [hclose]
        exact step?_begin depth c
  | opening o =>
    rw [advance]
    split
    · next hassign => subst hassign; cases o <;> rfl
    · dsimp only
      rw [hclose]
      exact step?_begin depth c

end Token

/-- **The search and the scanner count alike**, from any place in a text on. -/
theorem Nesting.after?_run (mode : Token.Mode) (depth : Nat) (text : List Char) :
    after? ⟨mode.isText, depth⟩ text =
      (Token.nesting? depth (Token.run mode text).1).map
        fun d => ⟨(Token.run mode text).2.isText, d⟩ := by
  induction text generalizing mode depth with
  | nil => rfl
  | cons c text ih =>
    rw [after?, List.foldlM_cons, Token.step?_advance, Token.run, Token.nesting?_append]
    cases Token.nesting? depth (Token.advance mode c).1 with
    | none => rfl
    | some d => exact ih _ d

theorem Nesting.after?_scan (text : List Char) :
    after? outside text =
      (Token.nesting? 0 (Token.scan text)).map
        fun d => ⟨(Token.run .between text).2.isText, d⟩ := by
  have hclose : Token.nesting? 0 (Token.scan text) = Token.nesting? 0 (Token.run .between text).1 := by
    rw [Token.scan, Token.nesting?_append]
    cases Token.nesting? 0 (Token.run .between text).1 with
    | none => rfl
    | some d => exact Token.nesting?_of_plain (Token.Mode.close_plain _) d
  rw [hclose]
  exact after?_run .between 0 text

end DeskCheck
