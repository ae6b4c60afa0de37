import DeskCheck.Proofs.Grammar
import DeskCheck.Proofs.Levels

/-!
# Closing brackets that are missing

Closing brackets may be missing at the end of the tokens.  If all tokens of a list are read, closing
brackets may be dropped from its end, as many as there are, and the same expression is read of the
tokens that are kept (`front_without_closers`).

There is one exception.  The parser looks for the `]` of an empty sequence right behind its `[`, and
where the tokens end there it does not find one: it goes on to read an element, of which there is
nothing.  So the tokens that are kept must not end with an opening bracket (`EndsOpen`), and in
particular `[` is not read although `[]` is (`emptySequence_unclosed`).

`Survives` says what becomes of one result when the tokens are shortened: the parser goes on with a
rest that is shortened in the same way, or it fails behind the last token, which then is an opening
bracket.  All parts of a layer keep this if the layer one level down does (`Tolerant`), and so all
layers have it (`tolerant_ofLevels`).
-/

namespace DeskCheck.Parse

/-! ### Shortened tokens -/

/-- The tokens `kept` are left when closing brackets are dropped from the end of `full`. -/
def Shortened (full kept : List Token) : Prop :=
  ∃ closers, full = kept ++ closers ∧ ∀ tok ∈ closers, IsCloser tok

/-- The tokens end with an opening bracket of a sequence or an index. -/
def EndsOpen (ts : List Token) : Prop := ts.getLast? = some (.mark .leftBracket)

section Shortened

variable {full kept ts : List Token} {tok : Token}

theorem shortened_refl (ts : List Token) : Shortened ts ts := ⟨[], by simp, closers_nil⟩

theorem Shortened.eq_nil (h : Shortened [] kept) : kept = [] := by
  obtain ⟨closers, happend, -⟩ := h
  exact (List.append_eq_nil_iff.mp happend.symm).1

/-- The first token is kept, or all tokens are closing brackets and none is kept. -/
theorem Shortened.cons_cases (h : Shortened (tok :: ts) kept) :
    (∃ kept', kept = tok :: kept' ∧ Shortened ts kept') ∨
      (kept = [] ∧ IsCloser tok ∧ Shortened ts []) := by
  obtain ⟨closers, happend, hclosers⟩ := h
  cases kept with
  | nil =>
    rw [List.nil_append] at happend
    subst happend
    obtain ⟨htok, hts⟩ := List.forall_mem_cons.mp hclosers
    exact .inr ⟨rfl, htok, ts, rfl, hts⟩
  | cons first kept =>
    obtain ⟨rfl, rfl⟩ := List.cons.inj happend
    exact .inl ⟨kept, rfl, closers, rfl, hclosers⟩

/-- What is kept in front is in front of all tokens. -/
theorem Shortened.begins (h : Shortened full (tok :: ts)) : ∃ ts', full = tok :: ts' := by
  obtain ⟨closers, rfl, -⟩ := h
  exact ⟨ts ++ closers, rfl⟩

/-- A token that is no closing bracket is kept. -/
theorem Shortened.keeps (h : Shortened (tok :: ts) kept) (htok : ¬ IsCloser tok) :
    ∃ kept', kept = tok :: kept' ∧ Shortened ts kept' := by
  rcases h.cons_cases with hkeeps | ⟨-, hcloser, -⟩
  · exact hkeeps
  · exact absurd hcloser htok

theorem not_endsOpen_nil : ¬ EndsOpen [] := nofun

theorem endsOpen_cons (h : tok ≠ .mark .leftBracket) : EndsOpen (tok :: ts) ↔ EndsOpen ts := by
  cases ts with
  | nil => simp [EndsOpen, h]
  | cons next ts => rw [EndsOpen, EndsOpen, List.getLast?_cons_cons]

theorem endsOpen_cons_cons {next : Token} :
    EndsOpen (tok :: next :: ts) ↔ EndsOpen (next :: ts) := by
  rw [EndsOpen, EndsOpen, List.getLast?_cons_cons]

theorem not_isCloser_binary (op : BinaryOp) : ¬ IsCloser op.token := by
  cases op <;> rintro (h | h) <;> cases h

theorem not_isCloser_unary (op : UnaryOp) : ¬ IsCloser op.token := by
  cases op <;> rintro (h | h) <;> cases h

theorem binary_ne_leftBracket (op : BinaryOp) : op.token ≠ .mark .leftBracket := by
  cases op <;> nofun

theorem unary_ne_leftBracket (op : UnaryOp) : op.token ≠ .mark .leftBracket := by
  cases op <;> nofun

end Shortened

/-! ### Results on shortened tokens -/

/-- What is answered on the tokens `kept`, if the result on all tokens is `a` and the `rest`. -/
inductive Survives {α : Type} (kept : List Token) (answer : Except Failure (α × List Token)) (a : α)
    (rest : List Token) : Prop
  /-- The same, and a rest that is shortened as well. -/
  | same {left : List Token} : answer = .ok (a, left) → Shortened rest left →
      (EndsOpen left ↔ EndsOpen kept) → Survives kept answer a rest
  /-- Nothing: the tokens end where an empty sequence has begun. -/
  | stuck {cause : ParseCause} : EndsOpen kept → answer = .error ⟨cause, 0⟩ →
      (cause = .unexpectedEnd ∨ cause = .tooDeep) → Survives kept answer a rest

/-- Results of the parser survive the loss of closing brackets at the end of the tokens. -/
def Tolerant {α : Type} (parser : Parser α) : Prop :=
  ∀ full kept a rest, Shortened full kept → parser full = .ok (a, rest) →
    Survives kept (parser kept) a rest

structure Layer.Tolerant (layer : Layer) : Prop where
  tier : ∀ t, Parse.Tolerant (layer.tier t)
  chain : ∀ t left, Parse.Tolerant (layer.chain t left)
  sound : layer.Sound
  /-- Where there are no tokens there is nothing to read. -/
  nil : layer.tier .or [] = .error ⟨.unexpectedEnd, 0⟩

namespace Survives

variable {α β : Type} {kept kept' mid rest : List Token} {a : α} {b : β}
  {answer : Except Failure (α × List Token)}

theorem ok (h : Shortened rest kept) : Survives kept (.ok (a, kept)) a rest := .same rfl h Iff.rfl

/-- Tokens in front that do not matter. -/
theorem behind (h : Survives kept answer a rest) (hiff : EndsOpen kept ↔ EndsOpen kept') :
    Survives kept' answer a rest := by
  cases h with
  | same hanswer hshort hopen => exact .same hanswer hshort (hopen.trans hiff)
  | stuck hopen hanswer hcause => exact .stuck (hiff.mp hopen) hanswer hcause

/-- What comes behind a result goes on from it. -/
theorem bind {f : α × List Token → Except Failure (β × List Token)}
    (h : Survives kept answer a mid)
    (hf : ∀ left, answer = .ok (a, left) → Shortened mid left →
      Survives left (f (a, left)) b rest) : Survives kept (answer >>= f) b rest := by
  cases h with
  | same hanswer hshort hopen =>
    have hnext := (hf _ hanswer hshort).behind hopen
    rw [hanswer]
    exact hnext
  | stuck hopen hanswer hcause =>
    rw [hanswer]
    exact .stuck hopen rfl hcause

/-- Where no token is kept, the parser is not stuck behind one. -/
theorem exists_of_nil (h : Survives [] answer a rest) : ∃ left, answer = .ok (a, left) := by
  cases h with
  | same hanswer _ _ => exact ⟨_, hanswer⟩
  | stuck hopen _ _ => exact absurd hopen not_endsOpen_nil

/-- A parser that needs a token keeps one. -/
theorem ne_nil {parser : Parser α} (h : Survives kept (parser kept) a rest)
    (hnil : ∀ r, parser [] ≠ .ok r) : kept ≠ [] := by
  rintro rfl
  obtain ⟨left, hleft⟩ := h.exists_of_nil
  exact hnil _ hleft

/-- An opening bracket in front of tokens that are kept is not the last token. -/
theorem behind_bracket (h : Survives kept answer a rest) (hne : kept ≠ []) :
    Survives (.mark .leftBracket :: kept) answer a rest := by
  obtain ⟨tok, ts, rfl⟩ := List.exists_cons_of_ne_nil hne
  exact h.behind endsOpen_cons_cons.symm

end Survives

/-! ### The parts of a layer -/

section Parts

variable {α β : Type}

theorem Tolerant.deeper {b : Option Layer} {parser : Layer → Parser α}
    (h : ∀ layer, b = some layer → Tolerant (parser layer)) : Tolerant (deeper b parser) := by
  intro full kept a rest hshort hok
  cases b with
  | none => cases hok
  | some layer => exact h layer rfl full kept a rest hshort hok

theorem tolerant_close {bracket : Mark} (hbracket : IsCloser (.mark bracket)) (cause : ParseCause) :
    Tolerant (close bracket cause) := by
  intro full kept a rest hshort hok
  have hopen : Token.mark bracket ≠ .mark .leftBracket := by
    rintro h
    rcases hbracket with hcloser | hcloser <;> cases h.symm.trans hcloser
  rcases close_eq_ok hok with rfl | ⟨rfl, rfl⟩
  · rcases hshort.cons_cases with ⟨kept', rfl, hrest⟩ | ⟨rfl, -, hrest⟩
    · exact .same (close_bracket bracket cause kept') hrest (endsOpen_cons hopen).symm
    · exact .ok hrest
  · obtain rfl := hshort.eq_nil
    exact .ok (shortened_refl [])

/-- What is read behind an opening bracket: something, and the closing bracket. -/
def inBrackets (inner : Parser α) (wrap : α → β) (bracket : Mark) (cause : ParseCause) : Parser β :=
  fun ts => do
    let (a, ts) ← inner ts
    let ((), ts) ← close bracket cause ts
    return (wrap a, ts)

theorem Tolerant.inBrackets {inner : Parser α} (h : Tolerant inner) (wrap : α → β) {bracket : Mark}
    (hbracket : IsCloser (.mark bracket)) (cause : ParseCause) :
    Tolerant (inBrackets inner wrap bracket cause) := by
  intro full kept b rest hshort hok
  obtain ⟨⟨a, ts⟩, hinner, hok⟩ := exists_of_bind_eq_ok hok
  obtain ⟨⟨⟨⟩, ts'⟩, hclose, hok⟩ := exists_of_bind_eq_ok hok
  cases hok
  refine (h full kept a ts hshort hinner).bind fun left _ hleft => ?_
  exact (tolerant_close hbracket cause ts left () rest hleft hclose).bind fun _ _ => .ok

theorem inBrackets_nil {inner : Parser α} {failure : Failure} (h : inner [] = .error failure)
    (wrap : α → β) (bracket : Mark) (cause : ParseCause) :
    inBrackets inner wrap bracket cause [] = .error failure := by
  rw [Parse.inBrackets, h]
  rfl

/-- Of a sentence at least one token is read. -/
theorem Sound.length_lt {t : Tier} {parser : Parser Expr} (h : Sound t parser) {e : Expr}
    {ts rest : List Token} (hok : parser ts = .ok (e, rest)) : rest.length < ts.length := by
  obtain ⟨-, read, missing, hread⟩ := h ts e rest hok
  have hpos := List.length_pos_of_ne_nil hread.nonempty
  rw [hread.split, List.length_append]
  omega

theorem moreItems_of_ne {item : Parser α} {commas : Nat} {a : α} {ts : List Token}
    (h : ∀ ts', ts ≠ .mark .comma :: ts') : moreItems item commas (a, ts) = .ok ([a], ts) := by
  unfold moreItems
  split
  · next ts' heq => exact absurd heq (h ts')
  · rfl

/-- The elements of a sequence; the tokens that are kept are enough commas for them. -/
theorem survives_items {item : Parser Expr} (h : Tolerant item) (hs : Sound .or item)
    {commas commas' : Nat} {full kept rest : List Token} {es : List Expr}
    (hshort : Shortened full kept) (hcommas : full.length ≤ commas)
    (hcommas' : kept.length ≤ commas') (hok : items item commas full = .ok (es, rest)) :
    Survives kept (items item commas' kept) es rest := by
  induction commas generalizing commas' full kept es with
  | zero =>
    obtain ⟨⟨first, mid⟩, hfirst, -⟩ := exists_of_bind_eq_ok hok
    have hlt := hs.length_lt hfirst
    omega
  | succ commas ih =>
    obtain ⟨⟨first, mid⟩, hfirst, hok⟩ := exists_of_bind_eq_ok hok
    have hlt := hs.length_lt hfirst
    have hsurvives := h full kept first mid hshort hfirst
    -- at least one token is kept for the first element
    obtain ⟨commas', rfl⟩ : ∃ n, commas' = n + 1 := by
      refine Nat.exists_eq_succ_of_ne_zero ?_
      rintro rfl
      obtain rfl := List.length_eq_zero_iff.mp (Nat.le_zero.mp hcommas')
      obtain ⟨left, hleft⟩ := hsurvives.exists_of_nil
      exact absurd (hs.length_lt hleft) (Nat.not_lt_zero _)
    show Survives kept (item kept >>= moreItems item commas') es rest
    refine hsurvives.bind fun left hleft hshort' => ?_
    have hlt' := hs.length_lt hleft
    change moreItems item commas (first, mid) = _ at hok
    by_cases hcomma : ∃ ts, mid = .mark .comma :: ts
    · obtain ⟨ts, rfl⟩ := hcomma
      obtain ⟨left', rfl, hmore⟩ := hshort'.keeps (by rintro (h | h) <;> cases h)
      obtain ⟨⟨others, rest'⟩, hothers, hok⟩ := exists_of_bind_eq_ok hok
      cases hok
      rw [List.length_cons] at hlt hlt'
      have hkept : left'.length ≤ commas' := by omega
      have hrest := ih hmore (by omega) hkept hothers
      have hjoined : Survives left' (items item commas' left' >>= fun r => .ok (first :: r.1, r.2))
          (first :: others) rest := hrest.bind fun _ _ => .ok
      exact hjoined.behind (endsOpen_cons (by nofun)).symm
    · rw [moreItems_of_ne (not_exists.mp hcomma)] at hok
      cases hok
      have hstop : ∀ ts, left ≠ .mark .comma :: ts := by
        rintro ts rfl
        exact hcomma hshort'.begins
      rw [moreItems_of_ne hstop]
      exact .ok hshort'

theorem Layer.Tolerant.elements {layer : Layer} (h : layer.Tolerant) :
    Parse.Tolerant fun ts => items (layer.tier .or) ts.length ts :=
  fun _ _ _ _ hshort hok =>
    survives_items (h.tier .or) (h.sound.tier .or) hshort (Nat.le_refl _) (Nat.le_refl _) hok

theorem Layer.Tolerant.elements_nil {layer : Layer} (h : layer.Tolerant) :
    items (layer.tier .or) 0 [] = .error ⟨.unexpectedEnd, 0⟩ := by
  rw [items, h.nil]
  rfl

/-- A single token that is an expression by itself. -/
theorem survives_single {b : Option Layer} {tok : Token} {e : Expr} {ts kept : List Token}
    (hcloser : ¬ IsCloser tok) (hbracket : tok ≠ .mark .leftBracket)
    (hatom : ∀ ts', Shortened ts ts' → atom b (tok :: ts') = .ok (e, ts'))
    (hshort : Shortened (tok :: ts) kept) : Survives kept (atom b kept) e ts := by
  obtain ⟨kept', rfl, hkept⟩ := hshort.keeps hcloser
  exact .same (hatom kept' hkept) hkept (endsOpen_cons hbracket).symm

end Parts

section Layer

variable {b : Option Layer} (hb : ∀ layer, b = some layer → layer.Tolerant)
include hb

theorem tolerant_chain (t : Tier) (left : Expr) : Tolerant (chain b t left) := by
  intro full kept e rest hshort hok
  cases full with
  | nil =>
    cases hok
    obtain rfl := hshort.eq_nil
    exact .ok hshort
  | cons tok ts =>
    rcases hop : t.operator? tok with _ | op
    · -- the chain ends here, and it ends as well if the token is dropped
      have hend : chain b t left kept = .ok (left, kept) := by
        rcases hshort.cons_cases with ⟨kept', rfl, -⟩ | ⟨rfl, -⟩
        · simp only [chain, hop]
        · rfl
      simp only [chain, hop] at hok
      cases hok
      rw [hend]
      exact .ok hshort
    · obtain ⟨rfl, rfl⟩ := Tier.operator?_eq_some_iff.mp hop
      obtain ⟨kept', rfl, hkept⟩ := hshort.keeps (not_isCloser_binary op)
      rw [chain_operator] at hok ⊢
      refine Survives.behind ?_ (endsOpen_cons (binary_ne_leftBracket op)).symm
      refine Tolerant.deeper (fun layer hlayer => ?_) ts kept' e rest hkept hok
      intro full kept e rest hshort hok
      obtain ⟨⟨right, mid⟩, hright, hok⟩ := exists_of_bind_eq_ok hok
      refine ((hb layer hlayer).tier op.tier.next full kept right mid hshort hright).bind ?_
      exact fun left _ hleft => (hb layer hlayer).chain op.tier _ mid left e rest hleft hok

theorem tolerant_chained (t : Tier) {operand : Parser Expr} (h : Tolerant operand) :
    Tolerant (chained b t operand) := by
  intro full kept e rest hshort hok
  obtain ⟨⟨first, mid⟩, hfirst, hok⟩ := exists_of_bind_eq_ok hok
  refine (h full kept first mid hshort hfirst).bind fun left _ hleft => ?_
  exact tolerant_chain hb t first mid left e rest hleft hok

theorem tolerant_prefixed (op : UnaryOp) {otherwise : Parser Expr} (h : Tolerant otherwise) :
    Tolerant (prefixed b op.token op op.tier otherwise) := by
  intro full kept e rest hshort hok
  have hotherwise : ∀ ts, ts.head? ≠ some op.token →
      prefixed b op.token op op.tier otherwise ts = otherwise ts := by
    intro ts hts
    cases ts with
    | nil => rfl
    | cons tok ts => simp only [prefixed, if_neg fun heq : tok = op.token => hts (heq ▸ rfl)]
  by_cases hhead : full.head? = some op.token
  · obtain ⟨ts, rfl⟩ := List.head?_eq_some_iff.mp hhead
    obtain ⟨kept', rfl, hkept⟩ := hshort.keeps (not_isCloser_unary op)
    simp only [prefixed, if_true] at hok ⊢
    refine Survives.behind ?_ (endsOpen_cons (unary_ne_leftBracket op)).symm
    refine Tolerant.deeper (fun layer hlayer => ?_) ts kept' e rest hkept hok
    intro full kept e rest hshort hok
    obtain ⟨⟨operand, mid⟩, hoperand, hok⟩ := exists_of_bind_eq_ok hok
    cases hok
    have hread := (hb layer hlayer).tier op.tier full kept operand mid hshort hoperand
    exact hread.bind fun _ _ => .ok
  · have hkept : kept.head? ≠ some op.token := by
      intro heq
      obtain ⟨kept', rfl⟩ := List.head?_eq_some_iff.mp heq
      exact hhead (List.head?_eq_some_iff.mpr hshort.begins)
    rw [hotherwise full hhead] at hok
    rw [hotherwise kept hkept]
    exact h full kept e rest hshort hok

/-! #### Atoms -/

/-- Where the tokens end, nothing is read behind an opening bracket. -/
theorem deeper_nil {parser : Layer → Parser Expr}
    (h : ∀ layer : Layer, layer.Tolerant → parser layer [] = .error ⟨.unexpectedEnd, 0⟩) :
    ∃ cause, deeper b parser [] = .error ⟨cause, 0⟩ ∧
      (cause = .unexpectedEnd ∨ cause = .tooDeep) := by
  cases b with
  | none => exact ⟨_, rfl, .inr rfl⟩
  | some layer => exact ⟨_, h layer (hb layer rfl), .inl rfl⟩

/-- Behind an opening bracket, for which a token is kept. -/
theorem survives_bracket {parser : Layer → Parser Expr}
    (h : ∀ layer : Layer, layer.Tolerant → Tolerant (parser layer))
    (hnil : ∀ layer : Layer, layer.Tolerant → parser layer [] = .error ⟨.unexpectedEnd, 0⟩)
    {ts kept rest : List Token} {e : Expr} (hshort : Shortened ts kept)
    (hok : deeper b parser ts = .ok (e, rest)) :
    Survives (.mark .leftBracket :: kept) (deeper b parser kept) e rest := by
  have hsurvives := Tolerant.deeper (fun layer hlayer => h layer (hb layer hlayer)) ts kept e rest
    hshort hok
  have hne : kept ≠ [] := by
    refine hsurvives.ne_nil fun r hr => ?_
    obtain ⟨cause, herror, -⟩ := deeper_nil hb hnil
    rw [herror] at hr
    cases hr
  exact hsurvives.behind_bracket hne

/-- An empty sequence whose closing bracket is dropped: an element is looked for, and there is
none. -/
theorem stuck_emptySequence (e : Expr) (rest : List Token) :
    Survives [.mark .leftBracket] (atom b [.mark .leftBracket]) e rest := by
  obtain ⟨cause, herror, hcause⟩ := deeper_nil hb fun layer hlayer =>
    inBrackets_nil hlayer.elements_nil Expr.sequence .rightBracket .unclosedSequence
  refine .stuck rfl ?_ hcause
  rw [atom_sequence b (by simp)]
  exact herror

theorem tolerant_atom : Tolerant (atom b) := by
  intro full kept e rest hshort hok
  unfold atom at hok
  split at hok
  case h_1 | h_11 => cases hok
  case h_2 n ts | h_3 s ts | h_4 ts | h_5 ts =>
    cases hok
    exact survives_single (by simp [IsCloser]) (by simp) (fun _ _ => rfl) hshort
  case h_6 ts =>
    obtain ⟨kept', rfl, hkept⟩ := hshort.keeps (by simp [IsCloser])
    have hbody : ∀ layer, b = some layer →
        Tolerant (inBrackets (layer.tier .or) id .rightParen .unclosedParen) := fun layer hlayer =>
      ((hb layer hlayer).tier .or).inBrackets id (.inl rfl) .unclosedParen
    refine Survives.behind ?_ (endsOpen_cons (by simp)).symm
    exact Tolerant.deeper hbody ts kept' e rest hkept hok
  case h_7 ts =>
    cases hok
    obtain ⟨kept', rfl, hkept⟩ := hshort.keeps (by simp [IsCloser])
    rcases hkept.cons_cases with ⟨kept'', rfl, hkept'⟩ | ⟨rfl, -, -⟩
    · refine .same rfl hkept' ?_
      rw [endsOpen_cons_cons, endsOpen_cons (by simp)]
    · exact stuck_emptySequence hb _ _
  case h_8 ts hne =>
    obtain ⟨kept', rfl, hkept⟩ := hshort.keeps (by simp [IsCloser])
    have hsurvives := survives_bracket hb
      (fun layer hlayer => hlayer.elements.inBrackets Expr.sequence (.inr rfl) .unclosedSequence)
      (fun layer hlayer => inBrackets_nil hlayer.elements_nil _ _ _) hkept hok
    rw [atom_sequence b]
    · exact hsurvives
    · intro hhead
      obtain ⟨us, rfl⟩ := List.head?_eq_some_iff.mp hhead
      obtain ⟨ts', hts⟩ := hkept.begins
      exact hne ts' hts
  case h_9 name ts =>
    obtain ⟨kept', rfl, hkept⟩ := hshort.keeps (by simp [IsCloser])
    obtain ⟨kept'', rfl, hkept'⟩ := hkept.keeps (by simp [IsCloser])
    have hsurvives := survives_bracket hb
      (fun layer hlayer => (hlayer.tier .or).inBrackets (Expr.index name) (.inr rfl) .unclosedIndex)
      (fun layer hlayer => inBrackets_nil hlayer.nil _ _ _) hkept' hok
    exact hsurvives.behind endsOpen_cons_cons.symm
  case h_10 name ts hindex =>
    cases hok
    refine survives_single (by simp [IsCloser]) (by simp) (fun ts' hts' => ?_) hshort
    rw [atom]
    rintro us rfl
    obtain ⟨us', hts⟩ := hts'.begins
    exact hindex us' hts

/-- From the atoms down to the tier that binds least. -/
theorem tolerant_above : (Layer.above b).Tolerant := by
  have hatom : Tolerant (atom b) := tolerant_atom hb
  have hunary : Tolerant (unary b) := tolerant_prefixed hb .neg hatom
  have hmultiplicative : Tolerant (multiplicative b) := tolerant_chained hb .multiplicative hunary
  have hadditive : Tolerant (additive b) := tolerant_chained hb .additive hmultiplicative
  have hcomparison : Tolerant (comparison b) := tolerant_chained hb .comparison hadditive
  have hnegation : Tolerant (negation b) := tolerant_prefixed hb .not hcomparison
  have hconjunction : Tolerant (conjunction b) := tolerant_chained hb .and hnegation
  have hdisjunction : Tolerant (disjunction b) := tolerant_chained hb .or hconjunction
  refine ⟨fun t => ?_, tolerant_chain hb, sound_above fun layer h => (hb layer h).sound, rfl⟩
  cases t with
  | or => exact hdisjunction
  | and => exact hconjunction
  | not => exact hnegation
  | comparison => exact hcomparison
  | additive => exact hadditive
  | multiplicative => exact hmultiplicative
  | unary => exact hunary
  | atom => exact hatom

end Layer

theorem tolerant_ofLevels (levels : Nat) : (Layer.ofLevels levels).Tolerant := by
  induction levels with
  | zero => exact tolerant_above nofun
  | succ levels ih => exact tolerant_above fun layer h => Option.some.inj h ▸ ih

/-! ### Whole expressions -/

theorem front_eq_ok {tokens : List Token} {r : Expr × List Token} (h : front tokens = .ok r) :
    (Layer.ofLevels maxLevels).tier .or tokens = .ok r := by
  rw [front] at h
  split at h
  · next result hresult => rw [hresult]; exact congrArg _ (Except.ok.inj h)
  · cases h

/-- **Closing brackets may be missing at the end.**  If all tokens are read and closing brackets are
dropped from the end of them, the same expression is read of the tokens that are kept, unless these
end with the opening bracket of an empty sequence.  Then nothing is read, and the error is behind
this bracket. -/
theorem front_without_closers {kept closers : List Token} {e : Expr}
    (hclosers : ∀ tok ∈ closers, tok = .mark .rightParen ∨ tok = .mark .rightBracket)
    (h : front (kept ++ closers) = .ok (e, [])) :
    (kept.getLast? ≠ some (.mark .leftBracket) → front kept = .ok (e, [])) ∧
      (kept.getLast? = some (.mark .leftBracket) →
        ∃ cause, front kept = .error ⟨cause, kept.length⟩ ∧
          (cause = .unexpectedEnd ∨ cause = .tooDeep)) := by
  have hsurvives := (tolerant_ofLevels maxLevels).tier .or (kept ++ closers) kept e []
    ⟨closers, rfl, hclosers⟩ (front_eq_ok h)
  cases hsurvives with
  | same hanswer hshort hopen =>
    obtain rfl := hshort.eq_nil
    refine ⟨fun _ => by rw [front, hanswer], fun hlast => ?_⟩
    exact absurd (hopen.mpr hlast) not_endsOpen_nil
  | @stuck cause hopen hanswer hcause =>
    refine ⟨fun hlast => absurd hopen hlast, fun _ => ⟨cause, ?_, hcause⟩⟩
    rw [front, hanswer]
    rfl

/-- The tokens of `[[], (xs[i`, which have no closing bracket at the end. -/
def leftOpen : List Token :=
  [.mark .leftBracket, .mark .leftBracket, .mark .rightBracket, .mark .comma, .mark .leftParen,
    .name "xs", .mark .leftBracket, .name "i"]

theorem front_without_closers_leftOpen :
    front (leftOpen ++ [.mark .rightBracket, .mark .rightParen, .mark .rightBracket]) =
        .ok (.sequence [.sequence [], .index "xs" (.variable "i")], []) ∧
      front leftOpen = .ok (.sequence [.sequence [], .index "xs" (.variable "i")], []) ∧
      front (leftOpen.take 2 ++ [.mark .rightBracket]) = .ok (.sequence [.sequence []], []) ∧
      ∃ cause, front (leftOpen.take 2) = .error ⟨cause, 2⟩ := by
  have hwhole : front (leftOpen ++ [.mark .rightBracket, .mark .rightParen, .mark .rightBracket]) =
      .ok (.sequence [.sequence [], .index "xs" (.variable "i")], []) := rfl
  have hempty : front (leftOpen.take 2 ++ [.mark .rightBracket]) =
      .ok (.sequence [.sequence []], []) := rfl
  obtain ⟨cause, herror, -⟩ := (front_without_closers (by simp) hempty).2 rfl
  exact ⟨hwhole, (front_without_closers (by simp) hwhole).1 (by decide), hempty, cause, herror⟩

/-- **A missing `]` is not tolerated behind the `[` of an empty sequence.** -/
theorem emptySequence_unclosed :
    ¬ ∀ kept closers e,
      (∀ tok ∈ closers, tok = .mark .rightParen ∨ tok = .mark .rightBracket) →
      front (kept ++ closers) = .ok (e, []) → Expr.ofTokens kept = .ok e := by
  intro hall
  have hread := hall [.mark .leftBracket] [.mark .rightBracket] (.sequence []) (by simp) rfl
  have herror : Expr.ofTokens [.mark .leftBracket] = .error ⟨.unexpectedEnd, 1⟩ := rfl
  rw [herror] at hread
  cases hread

end DeskCheck.Parse
