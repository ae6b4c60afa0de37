import DeskCheck.Proofs.Tiers
import Mathlib.Data.List.Basic

/-!
# What the parser reads is in the grammar

`Derives t ts e` is the grammar of expressions: the tokens `ts` are a sentence of the tier `t`, and
`e` is the tree of this sentence.  The repetitions of the grammar are read from the left: a chain is
an operand, or a chain with an operator and one more operand behind it, so that the trees of chains
are left-associative; and parentheses leave no trace in the tree.

The parser tolerates closing brackets that are missing at the end of the tokens.  `Reading` is what
it makes of a list of tokens: a part that was read and that is a sentence once the missing brackets
are put behind it, and a rest with which the sentence could not go on.  Each part of the parser is
sound in this sense if the layer one level down is (`Sound`), and so all layers are
(`sound_ofLevels`).
-/

namespace DeskCheck

/-! ### The grammar -/

/-- The tokens are a sentence of the tier, and this is its tree. -/
inductive Derives : Tier → List Token → Expr → Prop
  | number (n : Number) : Derives .atom [.number n] (.number n)
  | text (s : String) : Derives .atom [.text s] (.text s)
  | true : Derives .atom [.keyword .true] (.boolean true)
  | false : Derives .atom [.keyword .false] (.boolean false)
  | paren {ts : List Token} {e : Expr} : Derives .or ts e →
      Derives .atom (.mark .leftParen :: ts ++ [.mark .rightParen]) e
  | empty : Derives .atom [.mark .leftBracket, .mark .rightBracket] (.sequence [])
  /-- Each part is an element with its tokens. -/
  | sequence {parts : List (List Token × Expr)} : parts ≠ [] →
      (∀ part ∈ parts, Derives .or part.1 part.2) →
      Derives .atom
        (.mark .leftBracket :: [.mark .comma].intercalate (parts.map Prod.fst) ++
          [.mark .rightBracket])
        (.sequence (parts.map Prod.snd))
  | variable (name : String) : Derives .atom [.name name] (.variable name)
  | index (name : String) {ts : List Token} {e : Expr} : Derives .or ts e →
      Derives .atom (.name name :: .mark .leftBracket :: ts ++ [.mark .rightBracket])
        (.index name e)
  | unary (op : UnaryOp) {ts : List Token} {e : Expr} : Derives op.tier ts e →
      Derives op.tier (op.token :: ts) (.unary op e)
  | binary (op : BinaryOp) {ts us : List Token} {left right : Expr} : Derives op.tier ts left →
      Derives op.tier.next us right →
      Derives op.tier (ts ++ op.token :: us) (.binary op left right)
  /-- Without an operator of its own, a sentence of a tier is one of the next. -/
  | operand (t : Tier) {ts : List Token} {e : Expr} : Derives t.next ts e → Derives t ts e

namespace Parse

/-! ### What is made of a list of tokens -/

/-- A closing bracket. -/
def IsCloser (tok : Token) : Prop := tok = .mark .rightParen ∨ tok = .mark .rightBracket

theorem closers_nil : ∀ tok ∈ [], IsCloser tok := fun _ h => absurd h List.not_mem_nil

/-- The tokens begin with `read`, which is a sentence with `missing` behind it, and are left at the
`rest`. -/
structure Reading (Sentence : List Token → Prop) (tokens rest read missing : List Token) : Prop where
  split : tokens = read ++ rest
  nonempty : read ≠ []
  closers : ∀ tok ∈ missing, IsCloser tok
  /-- Brackets are missing at the end of the tokens only. -/
  complete : rest ≠ [] → missing = []
  sentence : Sentence (read ++ missing)
  /-- A name that is followed by a bracket is read on. -/
  unindexed : rest.head? = some (.mark .leftBracket) → ∀ name, read.getLast? ≠ some (.name name)

/-- What a parser of a tier makes of tokens is the tree of a sentence of the tier, which is left where
no operator goes on with it. -/
def Sound (t : Tier) (parser : Parser Expr) : Prop :=
  ∀ ts e rest, parser ts = .ok (e, rest) →
    t.Stops rest ∧ ∃ read missing, Reading (Derives t · e) ts rest read missing

/-- What a chain makes of a front that has been read and the tokens behind it. -/
def SoundChain (op : BinaryOp) (parser : Expr → Parser Expr) : Prop :=
  ∀ tokens left ts e rest read missing, op.tier.next.Stops ts →
    Reading (Derives op.tier · left) tokens ts read missing → parser left ts = .ok (e, rest) →
      op.tier.Stops rest ∧ ∃ read missing, Reading (Derives op.tier · e) tokens rest read missing

structure Layer.Sound (layer : Layer) : Prop where
  tier : ∀ t, Parse.Sound t (layer.tier t)
  chain : ∀ op, SoundChain op (layer.chain op.tier)

/-! ### Results of a step -/

theorem exists_of_bind_eq_ok {α β : Type} {x : Except Failure α} {f : α → Except Failure β} {b : β}
    (h : x >>= f = .ok b) : ∃ a, x = .ok a ∧ f a = .ok b := by
  cases x with
  | error failure => cases h
  | ok a => exact ⟨a, rfl, h⟩

theorem exists_of_deeper_eq_ok {α : Type} {b : Option Layer} {parser : Layer → Parser α}
    {ts : List Token} {r : α × List Token} (h : deeper b parser ts = .ok r) :
    ∃ layer, b = some layer ∧ parser layer ts = .ok r := by
  cases b with
  | none => cases h
  | some layer => exact ⟨layer, rfl, h⟩

theorem close_eq_ok {bracket : Mark} {cause : ParseCause} {ts rest : List Token}
    (h : close bracket cause ts = .ok ((), rest)) :
    ts = .mark bracket :: rest ∨ ts = [] ∧ rest = [] := by
  cases ts with
  | nil => cases h; exact .inr ⟨rfl, rfl⟩
  | cons tok ts =>
    rw [close] at h
    split at h
    · next heq => cases h; exact .inl (heq ▸ rfl)
    · cases h

namespace Reading

variable {Sentence Sentence' : List Token → Prop} {tokens ts rest rest' read read' missing missing' :
  List Token}

theorem imp (h : Reading Sentence tokens rest read missing) (himp : ∀ us, Sentence us → Sentence' us) :
    Reading Sentence' tokens rest read missing :=
  { h with sentence := himp _ h.sentence }

/-- More tokens in front. -/
theorem behind (opening : List Token) (h : Reading Sentence ts rest read missing)
    (himp : ∀ us, Sentence us → Sentence' (opening ++ us)) :
    Reading Sentence' (opening ++ ts) rest (opening ++ read) missing where
  split := by rw [h.split, List.append_assoc]
  nonempty := List.append_ne_nil_of_right_ne_nil _ h.nonempty
  closers := h.closers
  complete := h.complete
  sentence := by
    rw [List.append_assoc]
    exact himp _ h.sentence
  unindexed := by
    rw [List.getLast?_append_of_ne_nil _ h.nonempty]
    exact h.unindexed

/-- Between an opening and a closing bracket, which may be missing where the tokens end. -/
theorem enclosed (opening : List Token) {bracket : Mark} {cause : ParseCause}
    (hbracket : IsCloser (.mark bracket)) (h : Reading Sentence ts rest read missing)
    (hclose : close bracket cause rest = .ok ((), rest'))
    (himp : ∀ us, Sentence us → Sentence' (opening ++ us ++ [.mark bracket])) :
    ∃ read missing, Reading Sentence' (opening ++ ts) rest' read missing := by
  rcases close_eq_ok hclose with rfl | ⟨rfl, rfl⟩
  · have hnone : missing = [] := h.complete nofun
    subst hnone
    refine ⟨opening ++ read ++ [.mark bracket], [], ?_, ?_, closers_nil, fun _ => rfl, ?_, ?_⟩
    · rw [h.split]
      simp
    · simp
    · simpa using himp _ h.sentence
    · intro _ name
      simp
  · refine ⟨opening ++ read, missing ++ [.mark bracket], ?_, ?_, ?_, ?_, ?_, ?_⟩
    · rw [h.split, List.append_assoc]
    · exact List.append_ne_nil_of_right_ne_nil _ h.nonempty
    · intro tok htok
      rcases List.mem_append.mp htok with hmem | hmem
      · exact h.closers tok hmem
      · rwa [List.mem_singleton.mp hmem]
    · exact fun h => absurd rfl h
    · have := himp _ h.sentence
      simpa using this
    · nofun

/-- A sentence, and behind a token between them another one. -/
theorem joined (Sentence'' : List Token → Prop) {tok : Token}
    (h : Reading Sentence tokens (tok :: ts) read missing)
    (h' : Reading Sentence' ts rest read' missing')
    (himp : ∀ us us', Sentence us → Sentence' us' → Sentence'' (us ++ tok :: us')) :
    Reading Sentence'' tokens rest (read ++ [tok] ++ read') missing' := by
  -- no bracket is missing in front of the token
  have hfirst := h.sentence
  rw [h.complete (List.cons_ne_nil _ _), List.append_nil] at hfirst
  have hsplit : tokens = read ++ [tok] ++ ts := by
    rw [h.split, List.append_assoc]
    rfl
  rw [hsplit]
  refine h'.behind _ fun us hus => ?_
  rw [List.append_assoc]
  exact himp read us hfirst hus

end Reading

/-! ### The parts of a layer -/

/-- The operators that follow an operand are not those of its own tier, if none of these follows. -/
theorem stops_of_next {t : Tier} {rest : List Token} (h : t.next.Stops rest)
    (hnone : ∀ op : BinaryOp, op.tier = t → rest.head? ≠ some op.token) : t.Stops rest := by
  intro op hop
  have hlt := h op hop
  have hne : op.tier.level ≠ t.level := fun heq => hnone op (Tier.level_injective heq) hop
  cases t with
  | atom => exact hlt
  | _ => simp only [Tier.next, Tier.level] at hlt hne ⊢; omega

theorem Sound.operand {t : Tier} {parser : Parser Expr} (h : Sound t.next parser)
    {ts rest : List Token} {e : Expr} (hok : parser ts = .ok (e, rest)) :
    t.next.Stops rest ∧ ∃ read missing, Reading (Derives t · e) ts rest read missing := by
  obtain ⟨hstops, read, missing, hread⟩ := h ts e rest hok
  exact ⟨hstops, read, missing, hread.imp fun _ => .operand t⟩

theorem stops_atom (rest : List Token) : Tier.atom.Stops rest := by
  intro op _
  cases op <;> decide

/-- A single token that is a sentence by itself. -/
theorem reading_single {e : Expr} {tok : Token} {rest : List Token} (h : Derives .atom [tok] e)
    (hname : rest.head? = some (.mark .leftBracket) → ∀ name, tok ≠ .name name) :
    Reading (Derives .atom · e) (tok :: rest) rest [tok] [] where
  split := rfl
  nonempty := List.cons_ne_nil _ _
  closers := closers_nil
  complete := fun _ => rfl
  sentence := h
  unindexed := fun hopen name heq => hname hopen name (Option.some.inj heq)

/-- The elements of a sequence and the tokens between its brackets. -/
def Elements (es : List Expr) (us : List Token) : Prop :=
  ∃ parts : List (List Token × Expr), parts ≠ [] ∧ (∀ part ∈ parts, Derives .or part.1 part.2) ∧
    es = parts.map Prod.snd ∧ us = [.mark .comma].intercalate (parts.map Prod.fst)

theorem elements_single {us : List Token} {e : Expr} (h : Derives .or us e) : Elements [e] us :=
  ⟨[(us, e)], List.cons_ne_nil _ _, fun _ hpart => List.mem_singleton.mp hpart ▸ h, rfl,
    by simp [List.intercalate]⟩

theorem elements_cons {us us' : List Token} {e : Expr} {es : List Expr} (h : Derives .or us e)
    (h' : Elements es us') : Elements (e :: es) (us ++ .mark .comma :: us') := by
  obtain ⟨parts, hne, hparts, rfl, rfl⟩ := h'
  refine ⟨(us, e) :: parts, List.cons_ne_nil _ _, List.forall_mem_cons.mpr ⟨h, hparts⟩, rfl, ?_⟩
  obtain ⟨part, more, rfl⟩ := List.exists_cons_of_ne_nil hne
  simp [List.intercalate]

theorem reading_items {item : Parser Expr} (h : Sound .or item) {commas : Nat} {ts rest : List Token}
    {es : List Expr} (hok : items item commas ts = .ok (es, rest)) :
    ∃ read missing, Reading (Elements es) ts rest read missing := by
  induction commas generalizing ts es with
  | zero =>
    obtain ⟨⟨first, ts'⟩, hfirst, hok⟩ := exists_of_bind_eq_ok hok
    cases hok
    obtain ⟨-, read, missing, hread⟩ := h ts first rest hfirst
    exact ⟨read, missing, hread.imp fun _ => elements_single⟩
  | succ commas ih =>
    obtain ⟨⟨first, ts'⟩, hfirst, hok⟩ := exists_of_bind_eq_ok hok
    obtain ⟨-, read, missing, hread⟩ := h ts first ts' hfirst
    dsimp only at hok
    split at hok
    · next ts'' =>
      obtain ⟨⟨others, rest'⟩, hothers, hok⟩ := exists_of_bind_eq_ok hok
      cases hok
      obtain ⟨read', missing', hread'⟩ := ih hothers
      exact ⟨_, missing', hread.joined (Elements (first :: others)) hread' fun _ _ => elements_cons⟩
    · cases hok
      exact ⟨read, missing, hread.imp fun _ => elements_single⟩

section Layer

variable {b : Option Layer} (hb : ∀ layer, b = some layer → layer.Sound)
include hb

theorem soundChain_chain (op : BinaryOp) : SoundChain op (chain b op.tier) := by
  intro tokens left ts e rest read missing hstops hread hok
  cases ts with
  | nil =>
    cases hok
    exact ⟨Tier.stops_nil _, read, missing, hread⟩
  | cons tok ts =>
    rcases hop : op.tier.operator? tok with _ | op'
    · -- the chain ends here
      simp only [chain, hop] at hok
      cases hok
      refine ⟨stops_of_next hstops fun op' htier hhead => ?_, read, missing, hread⟩
      have : op.tier.operator? tok = some op' :=
        Tier.operator?_eq_some_iff.mpr ⟨htier.symm, Option.some.inj hhead⟩
      rw [hop] at this
      cases this
    · obtain ⟨htier, rfl⟩ := Tier.operator?_eq_some_iff.mp hop
      simp only [chain, hop] at hok
      obtain ⟨layer, hlayer, hok⟩ := exists_of_deeper_eq_ok hok
      obtain ⟨⟨right, ts'⟩, hright, hok⟩ := exists_of_bind_eq_ok hok
      obtain ⟨hstops', read', missing', hread'⟩ := (hb layer hlayer).tier op.tier.next ts right ts' hright
      have hjoined := hread.joined (Derives op.tier · (.binary op' left right)) hread'
        fun us us' hus hus' => htier ▸ Derives.binary op' (htier ▸ hus) (htier ▸ hus')
      exact (hb layer hlayer).chain op tokens _ ts' e rest _ missing' hstops' hjoined hok

theorem sound_chained (op : BinaryOp) {operand : Parser Expr} (h : Sound op.tier.next operand) :
    Sound op.tier (chained b op.tier operand) := by
  intro ts e rest hok
  obtain ⟨⟨left, ts'⟩, hleft, hok⟩ := exists_of_bind_eq_ok hok
  obtain ⟨hstops, read, missing, hread⟩ := h.operand hleft
  exact soundChain_chain hb op ts left ts' e rest read missing hstops hread hok

theorem sound_prefixed (op : UnaryOp) {otherwise : Parser Expr} (h : Sound op.tier.next otherwise) :
    Sound op.tier (prefixed b op.token op op.tier otherwise) := by
  intro ts e rest hok
  -- no binary operator is of the tier of a prefix
  have hotherwise : otherwise ts = .ok (e, rest) →
      op.tier.Stops rest ∧ ∃ read missing, Reading (Derives op.tier · e) ts rest read missing := by
    intro hok
    obtain ⟨hstops, hread⟩ := h.operand hok
    exact ⟨stops_of_next hstops fun op' htier => absurd htier (Tier.binary_ne_unary op' op), hread⟩
  cases ts with
  | nil => exact hotherwise hok
  | cons tok ts =>
    by_cases htok : tok = op.token
    · subst htok
      simp only [prefixed, if_true] at hok
      obtain ⟨layer, hlayer, hok⟩ := exists_of_deeper_eq_ok hok
      obtain ⟨⟨operand, ts'⟩, hoperand, hok⟩ := exists_of_bind_eq_ok hok
      cases hok
      obtain ⟨hstops, read, missing, hread⟩ := (hb layer hlayer).tier op.tier ts _ _ hoperand
      exact ⟨hstops, _, missing, hread.behind [op.token] fun us hus => Derives.unary op hus⟩
    · simp only [prefixed, if_neg htok] at hok
      exact hotherwise hok

theorem sound_atom : Sound .atom (atom b) := by
  intro ts e rest hok
  refine ⟨stops_atom rest, ?_⟩
  unfold atom at hok
  split at hok
  case h_1 => cases hok
  case h_2 n ts => cases hok; exact ⟨_, _, reading_single (.number n) nofun⟩
  case h_3 s ts => cases hok; exact ⟨_, _, reading_single (.text s) nofun⟩
  case h_4 ts => cases hok; exact ⟨_, _, reading_single .true nofun⟩
  case h_5 ts => cases hok; exact ⟨_, _, reading_single .false nofun⟩
  case h_6 ts =>
    obtain ⟨layer, hlayer, hok⟩ := exists_of_deeper_eq_ok hok
    obtain ⟨⟨inner, ts'⟩, hinner, hok⟩ := exists_of_bind_eq_ok hok
    obtain ⟨⟨⟨⟩, rest'⟩, hclose, hok⟩ := exists_of_bind_eq_ok hok
    cases hok
    obtain ⟨-, read, missing, hread⟩ := (hb layer hlayer).tier .or ts _ _ hinner
    exact hread.enclosed [.mark .leftParen] (.inl rfl) hclose fun _ => .paren
  case h_7 ts =>
    cases hok
    exact ⟨[.mark .leftBracket, .mark .rightBracket], [], rfl, List.cons_ne_nil _ _, closers_nil,
      fun _ => rfl, .empty, fun _ _ => nofun⟩
  case h_8 ts _ =>
    obtain ⟨layer, hlayer, hok⟩ := exists_of_deeper_eq_ok hok
    obtain ⟨⟨elements, ts'⟩, helements, hok⟩ := exists_of_bind_eq_ok hok
    obtain ⟨⟨⟨⟩, rest'⟩, hclose, hok⟩ := exists_of_bind_eq_ok hok
    cases hok
    obtain ⟨read, missing, hread⟩ := reading_items ((hb layer hlayer).tier .or) helements
    refine hread.enclosed [.mark .leftBracket] (.inr rfl) hclose ?_
    rintro _ ⟨parts, hne, hparts, rfl, rfl⟩
    exact .sequence hne hparts
  case h_9 name ts =>
    obtain ⟨layer, hlayer, hok⟩ := exists_of_deeper_eq_ok hok
    obtain ⟨⟨inner, ts'⟩, hinner, hok⟩ := exists_of_bind_eq_ok hok
    obtain ⟨⟨⟨⟩, rest'⟩, hclose, hok⟩ := exists_of_bind_eq_ok hok
    cases hok
    obtain ⟨-, read, missing, hread⟩ := (hb layer hlayer).tier .or ts _ _ hinner
    exact hread.enclosed [.name name, .mark .leftBracket] (.inr rfl) hclose fun _ => .index name
  case h_10 name ts hindex =>
    cases hok
    refine ⟨_, _, reading_single (.variable name) fun hopen => ?_⟩
    -- an opening bracket would have made it an index
    obtain ⟨tail, rfl⟩ := List.head?_eq_some_iff.mp hopen
    exact absurd rfl (hindex tail)
  case h_11 => cases hok

/-- From the atoms down to the tier that binds least. -/
theorem sound_above : (Layer.above b).Sound := by
  have hatom : Sound .atom (atom b) := sound_atom hb
  have hunary : Sound .unary (unary b) := sound_prefixed hb .neg hatom
  have hmultiplicative : Sound .multiplicative (multiplicative b) := sound_chained hb .mul hunary
  have hadditive : Sound .additive (additive b) := sound_chained hb .add hmultiplicative
  have hcomparison : Sound .comparison (comparison b) := sound_chained hb .eq hadditive
  have hnegation : Sound .not (negation b) := sound_prefixed hb .not hcomparison
  have hconjunction : Sound .and (conjunction b) := sound_chained hb .and hnegation
  have hdisjunction : Sound .or (disjunction b) := sound_chained hb .or hconjunction
  refine ⟨fun t => ?_, fun op => soundChain_chain hb op⟩
  cases t with
  | or => exact hdisjunction
  | and => exact hconjunction
  | not => exact hnegation
  | comparison => exact hcomparison
  | additive => exact hadditive
  | multiplicative => exact hmultiplicative
  | unary => exact hunary
  | atom => exact hatom

end Layer

theorem sound_ofLevels (levels : Nat) : (Layer.ofLevels levels).Sound := by
  induction levels with
  | zero => exact sound_above nofun
  | succ levels ih => exact sound_above fun layer h => Option.some.inj h ▸ ih

/-- **What the parser reads is an expression of the grammar.**  The tokens up to the rest, which are
one at least, are a sentence with this tree, once brackets that are missing at the end of the tokens
are put behind them.  The rest does not begin with an operator that could go on with the expression,
nor with a bracket that could make an index of a name at its end. -/
theorem front_derives {tokens rest : List Token} {e : Expr} (h : front tokens = .ok (e, rest)) :
    ∃ read missing, tokens = read ++ rest ∧ read ≠ [] ∧
      (∀ tok ∈ missing, tok = .mark .rightParen ∨ tok = .mark .rightBracket) ∧
      (rest ≠ [] → missing = []) ∧ Derives .or (read ++ missing) e ∧
      ∀ tok, rest.head? = some tok → (∀ op : BinaryOp, tok ≠ op.token) ∧
        (tok = .mark .leftBracket → ∀ name, read.getLast? ≠ some (.name name)) := by
  have hok : (Layer.ofLevels maxLevels).tier .or tokens = .ok (e, rest) := by
    rw [front] at h
    split at h
    · next result hresult => rw [hresult]; exact congrArg _ (Except.ok.inj h)
    · cases h
  obtain ⟨hstops, read, missing, hread⟩ := (sound_ofLevels maxLevels).tier .or tokens e rest hok
  refine ⟨read, missing, hread.split, hread.nonempty, hread.closers, hread.complete, hread.sentence,
    fun tok htok => ⟨fun op heq => ?_, fun heq => hread.unindexed (heq ▸ htok)⟩⟩
  -- nothing binds less than the tier on which the parser begins
  exact absurd (hstops op (heq ▸ htok)) (Nat.not_lt_zero _)

/-- The tokens of `-(xs[i`, which have no closing bracket. -/
def unclosed : List Token :=
  [.mark .minus, .mark .leftParen, .name "xs", .mark .leftBracket, .name "i"]

theorem front_derives_unclosed :
    front unclosed = .ok (.unary .neg (.index "xs" (.variable "i")), []) ∧
      ∃ missing, (∀ tok ∈ missing, tok = .mark .rightParen ∨ tok = .mark .rightBracket) ∧
        Derives .or (unclosed ++ missing) (.unary .neg (.index "xs" (.variable "i"))) := by
  have hread : front unclosed = .ok (.unary .neg (.index "xs" (.variable "i")), []) := rfl
  obtain ⟨read, missing, hsplit, -, hclosers, -, hderives, -⟩ := front_derives hread
  rw [List.append_nil] at hsplit
  exact ⟨hread, missing, hclosers, hsplit ▸ hderives⟩

end Parse
end DeskCheck
