import DeskCheck.Proofs.Levels
import DeskCheck.Proofs.Spelling

/-!
# Written lines are read back

A line is written as tokens with single spaces between them; the words that a statement begins with
are names to the scanner.  Whatever stands in the texts of a line, it is read back as the line that
was written (`classify_toChars`).

Four readers look at the same characters.  The first word of a line is told by the blank behind it
(`classifyTrimmed_word`), the word `THEN` at the end by the blank in front of it, and the scanner
reads back what the tokens spell.  The search for the assignment sign passes over a target because
the brackets in the tokens of an expression are balanced and the quotes in pairs
(`passes_target`).
-/

namespace DeskCheck

open Text (isBlank trim trimEnd)

/-! ### Lines as tokens -/

namespace Expr

/-- Whether the expression can be written: its numbers, texts and names can, and it takes no more
levels of nesting than there are. -/
def isWritable (e : Expr) : Bool := e.tokens.all Token.isWritable && e.need ≤ maxLevels

theorem isWritable_iff {e : Expr} : e.isWritable = true ↔
    (∀ tok ∈ e.tokens, tok.isWritable = true) ∧ e.need ≤ maxLevels := by
  simp [isWritable]

theorem tokens_ne_nil (e : Expr) : e.tokens ≠ [] := by
  obtain ⟨tok, ts, htokens, -⟩ := begins_tokens e
  rw [htokens]
  exact List.cons_ne_nil tok ts

/-- A text that spells the tokens of an expression is read as the expression. -/
theorem parse_of_spells {e : Expr} {text : List Char} (h : Token.Spells text e.tokens)
    (hneed : e.need ≤ maxLevels) : parse text = .ok e := by
  rw [parse, h.scan_eq, Parse.ofTokens_tokens hneed]

/-- The text of an expression may stand between spaces. -/
theorem parse_written {e : Expr} (h : e.isWritable = true) :
    parse (Token.written e.tokens) = .ok e ∧ parse (' ' :: Token.written e.tokens) = .ok e ∧
      parse (' ' :: Token.spread e.tokens) = .ok e := by
  obtain ⟨htokens, hneed⟩ := isWritable_iff.mp h
  have hspells := Token.spells_written htokens
  have hfront : Token.Spells (' ' :: Token.written e.tokens) e.tokens :=
    Token.spells_nil.append hspells (c := ' ') rfl
  have hback := hfront.append Token.spells_nil (c := ' ') rfl
  rw [List.append_nil, List.cons_append, ← Token.spread_eq (tokens_ne_nil e)] at hback
  exact ⟨parse_of_spells hspells hneed, parse_of_spells hfront hneed, parse_of_spells hback hneed⟩

end Expr

namespace Target

/-- The tokens of the left side of an assignment. -/
def tokens : Target → List Token
  | .name n => [.name n]
  | .element n index => .name n :: .mark .leftBracket :: (index.tokens ++ [.mark .rightBracket])

/-- Whether the target can be written: it begins with a name that is no first word of another
statement, and its index can be written. -/
def isWritable (target : Target) : Bool :=
  Line.isName target.root.toList && !(["IF", "ELSEIF", "WHILE", "PRINT"].contains target.root) &&
    match target with
    | .name _ => true
    | .element _ index => index.isWritable

theorem tokens_ne_nil (target : Target) : target.tokens ≠ [] := by
  cases target <;> exact List.cons_ne_nil _ _

theorem isWritable_tokens {target : Target} (h : target.isWritable = true) :
    ∀ tok ∈ target.tokens, tok.isWritable = true := by
  simp only [isWritable, Bool.and_eq_true] at h
  cases target with
  | name n => exact List.forall_mem_singleton.mpr h.1.1
  | element n index =>
    have hindex := (Expr.isWritable_iff.mp h.2).1
    exact List.forall_mem_cons.mpr ⟨h.1.1, List.forall_mem_cons.mpr
      ⟨rfl, List.forall_mem_append.mpr ⟨hindex, List.forall_mem_singleton.mpr rfl⟩⟩⟩

end Target

namespace Line

/-- The tokens of a guard. -/
def guardTokens : Option Expr → List Token
  | none => []
  | some e => e.tokens

/-- The tokens of a line. -/
def tokens : Line → List Token
  | .blank | .unrecognized => []
  | .whileDo guard => .name "WHILE" :: guardTokens guard
  | .endWhile => [.name "ENDWHILE"]
  | .ifThen guard => .name "IF" :: (guardTokens guard ++ [.name "THEN"])
  | .elseIf guard => .name "ELSEIF" :: (guardTokens guard ++ [.name "THEN"])
  | .otherwise => [.name "ELSE"]
  | .endIf => [.name "ENDIF"]
  | .print e => .name "PRINT" :: e.tokens
  | .assign target value => target.tokens ++ .mark .assign :: value.tokens

/-- The line as it is written. -/
def toChars (line : Line) : List Char := Token.written line.tokens

/-- Whether the line can be written.  A line that is no statement and a guard that is no expression
have no text of their own. -/
def isWritable : Line → Bool
  | .blank | .endWhile | .otherwise | .endIf => true
  | .whileDo (some e) | .ifThen (some e) | .elseIf (some e) | .print e => e.isWritable
  | .assign target value => target.isWritable && value.isWritable
  | .whileDo none | .ifThen none | .elseIf none | .unrecognized => false

end Line

/-! ### The first word of a line -/

namespace Line

open Token (isWordChar written)

theorem afterWord?_append (word : String) (rest : List Char) :
    afterWord? word (word.toList ++ rest) =
      if (rest.head?).all isBlank then some (trim rest) else none := by
  have hcut : List.isPrefixOf? word.toList (word.toList ++ rest) = some rest :=
    List.isPrefixOf?_eq_some_iff_append_eq.mpr rfl
  rw [afterWord?, hcut]
  rfl

/-- The first word of a line that has a space behind it. -/
theorem afterWord?_word {word : String} {first : List Char} (rest : List Char)
    (hword : word.toList.all isWordChar = true) (hfirst : first.all isWordChar = true) :
    afterWord? word (first ++ ' ' :: rest) =
      if first = word.toList then some (trim (' ' :: rest)) else none := by
  have hsolid : ∀ c, isWordChar c = true → isBlank c = false := fun c hc =>
    Token.isBlank_of_isSolid (Token.isSolid_of_isWordChar hc)
  by_cases heq : first = word.toList
  · rw [heq, if_pos rfl, afterWord?_append]
    rfl
  · rw [if_neg heq]
    cases hcut : List.isPrefixOf? word.toList (first ++ ' ' :: rest) with
    | none => simp [afterWord?, hcut]
    | some behind =>
      have happend := List.isPrefixOf?_eq_some_iff_append_eq.mp hcut
      rcases List.append_eq_append_iff.mp happend with ⟨more, hlong, -⟩ | ⟨more, hlong, hrest⟩
      · -- the word goes on behind the keyword
        cases more with
        | nil => exact absurd (by simpa using hlong) heq
        | cons c more =>
          have hc := hsolid c (List.all_eq_true.mp hfirst c (by simp [hlong]))
          rw [hlong, List.append_assoc, afterWord?_append]
          simp [hc]
      · -- the keyword would have the space in it
        cases more with
        | nil => exact absurd (by simpa using hlong.symm) heq
        | cons c more =>
          obtain ⟨rfl, -⟩ := List.cons.inj hrest
          have hspace := hsolid ' ' (List.all_eq_true.mp hword ' ' (by simp [hlong]))
          cases hspace

/-- What a line is whose first word has a space behind it. -/
theorem classifyTrimmed_word {first : List Char} (rest : List Char)
    (hfirst : first.all isWordChar = true) :
    classifyTrimmed (first ++ ' ' :: rest) =
      if first = "ELSEIF".toList then .elseIf (guard? (dropThen (trim (' ' :: rest))))
      else if first = "IF".toList then .ifThen (guard? (dropThen (trim (' ' :: rest))))
      else if first = "WHILE".toList then .whileDo (guard? (trim (' ' :: rest)))
      else if first = "PRINT".toList then
        match Expr.parse (trim (' ' :: rest)) with
        | .ok e => .print e
        | .error _ => .unrecognized
      else (assignment? (first ++ ' ' :: rest)).getD .unrecognized := by
  have hne : ∀ word : List Char, ' ' ∉ word → first ++ ' ' :: rest ≠ word := by
    rintro word hword rfl
    exact hword (by simp)
  rw [classifyTrimmed, if_neg (hne _ (by decide)), if_neg (hne _ (by decide)),
    if_neg (hne _ (by decide)), if_neg (hne _ (by decide)), afterWord?_word rest (by decide) hfirst,
    afterWord?_word rest (by decide) hfirst, afterWord?_word rest (by decide) hfirst,
    afterWord?_word rest (by decide) hfirst]
  split_ifs <;> rfl

/-- The word `THEN` at the end of a guard, with a space in front of it, is dropped. -/
theorem dropThen_append {guard : List Char} (h : Text.Tight guard) :
    dropThen (guard ++ [' '] ++ "THEN".toList) = guard := by
  have hblank : isBlank ' ' = true := by decide
  have hcut : List.isSuffixOf? "THEN".toList (guard ++ [' '] ++ "THEN".toList) =
      some (guard ++ [' ']) := List.isSuffixOf?_eq_some_iff_append_eq.mpr rfl
  have htrim : trimEnd (guard ++ [' ']) = guard := Text.trimEnd_append h.2 (by simp [hblank])
  rw [dropThen, hcut]
  simp [hblank, htrim]

end Line

/-! ### Brackets -/

namespace Token

/-- Rows of tokens in which every bracket that opens is closed by one of its kind. -/
inductive Balanced : List Token → Prop
  | nil : Balanced []
  | single {tok : Token} : tok.isBracket = false → Balanced [tok]
  | append {ts us : List Token} : Balanced ts → Balanced us → Balanced (ts ++ us)
  | parens {ts : List Token} : Balanced ts →
      Balanced (.mark .leftParen :: (ts ++ [.mark .rightParen]))
  | brackets {ts : List Token} : Balanced ts →
      Balanced (.mark .leftBracket :: (ts ++ [.mark .rightBracket]))

theorem Balanced.cons {tok : Token} {ts : List Token} (htok : tok.isBracket = false)
    (h : Balanced ts) : Balanced (tok :: ts) :=
  (Balanced.single htok).append h

end Token

namespace Expr

open Token (Balanced)

theorem balanced_tokensAt {e : Expr} (h : Balanced e.tokens) (t : Tier) :
    Balanced (e.tokensAt t) := by
  rcases Nat.lt_or_ge e.tier.level t.level with hlt | hge
  · rw [tokensAt_of_lt hlt, List.cons_append]
    exact h.parens
  · rwa [tokensAt_of_le hge]

theorem balanced_itemsTokens {items : List Expr} (h : ∀ e ∈ items, Balanced e.tokens) :
    Balanced (itemsTokens items) := by
  induction items with
  | nil => exact .nil
  | cons e rest ih =>
    obtain ⟨he, hrest⟩ := List.forall_mem_cons.mp h
    cases rest with
    | nil => exact he
    | cons next rest => exact he.append ((ih hrest).cons rfl)

theorem balanced_tokens (e : Expr) : Balanced e.tokens := by
  induction e with
  | number n => exact .single rfl
  | text s => exact .single rfl
  | boolean b => exact .single rfl
  | name s => exact .single rfl
  | index s inner ih =>
    rw [tokens, List.cons_append, List.cons_append]
    exact ih.brackets.cons rfl
  | sequence items ih =>
    rw [tokens, List.cons_append]
    exact (balanced_itemsTokens ih).brackets
  | binary op left right hleft hright =>
    rw [tokens_binary]
    have hop : op.token.isBracket = false := by cases op <;> rfl
    exact (balanced_tokensAt hleft _).append ((balanced_tokensAt hright _).cons hop)
  | unary op operand ih =>
    rw [tokens_unary]
    have hop : op.token.isBracket = false := by cases op <;> rfl
    exact (balanced_tokensAt ih _).cons hop

end Expr

/-! ### The assignment sign -/

namespace Line

open Token (isSolid spread written)

/-- The search for the assignment sign passes over the text, inside of as many brackets as `depth`
says. -/
def Passes (depth : Nat) (text : List Char) : Prop :=
  ∀ passed rest, splitFrom passed false depth (text ++ rest) =
    splitFrom (text.reverse ++ passed) false depth rest

section Passes

variable {depth : Nat} {text : List Char}

theorem Passes.append {a b : List Char} (ha : Passes depth a) (hb : Passes depth b) :
    Passes depth (a ++ b) := by
  intro passed rest
  rw [List.append_assoc, ha, hb, List.reverse_append, List.append_assoc]

/-- An equals sign is passed inside of brackets. -/
theorem passes_char {c : Char} (hc : c ∉ ['"', '(', ')', '[', ']'])
    (hassign : c = '=' → depth ≠ 0) : Passes depth [c] := by
  intro passed rest
  have hpass : ¬ (c = '=' ∧ depth = 0 ∧ (passed.head?).all (fun p => p ∉ ['=', '!', '<', '>']) ∧
      rest.head? ≠ some '=') := fun h => hassign h.1 h.2.1
  simp only [List.mem_cons, List.not_mem_nil, or_false, not_or] at hc
  rw [List.singleton_append, splitFrom, if_neg hc.1, if_neg nofun, if_neg (by simp [hc]),
    if_neg (by simp [hc]), if_neg hpass]
  rfl

theorem passes_space : Passes depth [' '] := passes_char (by decide) nofun

theorem passes_solid (h : ∀ c ∈ text, isSolid c = true) (hassign : '=' ∈ text → depth ≠ 0) :
    Passes depth text := by
  induction text with
  | nil => exact fun _ _ => rfl
  | cons c text ih =>
    obtain ⟨hc, htext⟩ := List.forall_mem_cons.mp h
    have hplain : c ∉ ['"', '(', ')', '[', ']'] := by
      simp only [isSolid, Bool.and_eq_true, Bool.not_eq_true', List.contains_eq_mem,
        decide_eq_false_iff_not] at hc
      exact hc.2
    have hfirst : Passes depth [c] := passes_char hplain fun h => hassign (by simp [h])
    exact hfirst.append (ih htext fun h => hassign (List.mem_cons_of_mem c h))

theorem Passes.enclosed {opens closes : Char} (ho : opens = '(' ∨ opens = '[')
    (hc : closes = ')' ∨ closes = ']') (h : Passes (depth + 1) text) :
    Passes depth (opens :: (text ++ [closes])) := by
  intro passed rest
  have hinside := h (opens :: passed) (closes :: rest)
  rcases ho with rfl | rfl <;> rcases hc with rfl | rfl <;> simp [splitFrom, hinside]

/-- Between two quotes nothing counts. -/
theorem splitFrom_quoted (h : ∀ c ∈ text, c ≠ '"') (passed rest : List Char) (depth : Nat) :
    splitFrom passed true depth (text ++ rest) =
      splitFrom (text.reverse ++ passed) true depth rest := by
  induction text generalizing passed with
  | nil => rfl
  | cons c text ih =>
    obtain ⟨hc, htext⟩ := List.forall_mem_cons.mp h
    simp [splitFrom, hc, ih htext]

theorem passes_quotation (h : ∀ c ∈ text, c ≠ '"') : Passes depth ('"' :: (text ++ ['"'])) := by
  intro passed rest
  have hinside := splitFrom_quoted h ('"' :: passed) ('"' :: rest) depth
  simp [splitFrom, hinside]

theorem passes_spelling {tok : Token} (h : tok.isWritable = true)
    (hbracket : tok.isBracket = false) : Passes (depth + 1) tok.spelling := by
  by_cases htext : ∃ s, tok = .text s
  · obtain ⟨s, rfl⟩ := htext
    refine passes_quotation ?_
    rintro c hc rfl
    simp [Token.isWritable, hc] at h
  · exact passes_solid (Token.isSolid_spelling h (fun s hs => htext ⟨s, hs⟩) hbracket)
      fun _ => Nat.succ_ne_zero depth

theorem Passes.enclosed_spread {opens closes : Mark} {o c : Char} {ts : List Token}
    (hopens : opens.spelling.toList = [o]) (hcloses : closes.spelling.toList = [c])
    (ho : o = '(' ∨ o = '[') (hc : c = ')' ∨ c = ']') (h : Passes (depth + 1) (spread ts)) :
    Passes depth (spread (.mark opens :: (ts ++ [.mark closes]))) := by
  have hspread : spread (.mark opens :: (ts ++ [.mark closes])) =
      o :: ([' '] ++ spread ts ++ [c]) ++ [' '] := by
    rw [Token.spread_cons, Token.spread_append, Token.spread_singleton]
    simp [Token.spelling, hopens, hcloses]
  rw [hspread]
  exact ((passes_space.append h).enclosed ho hc).append passes_space

/-- Inside of brackets the search passes over balanced tokens. -/
theorem passes_spread {ts : List Token} (hbalanced : Token.Balanced ts)
    (h : ∀ tok ∈ ts, tok.isWritable = true) : Passes (depth + 1) (spread ts) := by
  induction hbalanced generalizing depth with
  | nil => exact fun _ _ => rfl
  | single hbracket =>
    rw [Token.spread_singleton]
    exact (passes_spelling (h _ (List.mem_singleton_self _)) hbracket).append passes_space
  | append _ _ iha ihb =>
    obtain ⟨ha, hb⟩ := List.forall_mem_append.mp h
    rw [Token.spread_append]
    exact (iha ha).append (ihb hb)
  | @parens ts _ ih =>
    have hinside : Passes (depth + 1 + 1) (spread ts) := ih fun tok htok => h tok (by simp [htok])
    exact hinside.enclosed_spread rfl rfl (.inl rfl) (.inl rfl)
  | @brackets ts _ ih =>
    have hinside : Passes (depth + 1 + 1) (spread ts) := ih fun tok htok => h tok (by simp [htok])
    exact hinside.enclosed_spread rfl rfl (.inr rfl) (.inr rfl)

end Passes

/-! ### Assignments -/

section Assignment

variable {target : Target}

/-- A name holds no assignment sign. -/
theorem passes_name {name : String} (h : isName name.toList = true) :
    Passes 0 (spread [.name name]) := by
  rw [Token.spread_singleton]
  refine (passes_solid ?_ ?_).append passes_space
  · exact fun c hc => Token.isSolid_of_isWordChar (Token.isWordChar_of_isName h c hc)
  · intro hmem
    have hword := Token.isWordChar_of_isName h '=' hmem
    exact absurd hword (by decide)

theorem passes_target (h : target.isWritable = true) : Passes 0 (spread target.tokens) := by
  cases target with
  | name n =>
    simp only [Target.isWritable, Bool.and_eq_true] at h
    exact passes_name h.1.1
  | element n index =>
    simp only [Target.isWritable, Bool.and_eq_true] at h
    obtain ⟨⟨hname, -⟩, hindex⟩ := h
    have hinside : Passes 1 (spread index.tokens) :=
      passes_spread index.balanced_tokens (Expr.isWritable_iff.mp hindex).1
    rw [Target.tokens, ← List.singleton_append, Token.spread_append]
    exact (passes_name hname).append (hinside.enclosed_spread rfl rfl (.inr rfl) (.inr rfl))

theorem splitAssignment?_written (h : target.isWritable = true) {ts : List Token} (hts : ts ≠ []) :
    splitAssignment? (written (target.tokens ++ .mark .assign :: ts)) =
      some (spread target.tokens, ' ' :: written ts) := by
  have hlast : (spread target.tokens).reverse = ' ' :: (written target.tokens).reverse := by
    rw [Token.spread_eq target.tokens_ne_nil, List.reverse_append]
    rfl
  have hassign : (Token.mark .assign).spelling = ['='] := rfl
  have hpassed := congrArg List.reverse hlast
  rw [List.reverse_reverse] at hpassed
  rw [Token.written_append _ (List.cons_ne_nil _ _), splitAssignment?, passes_target h,
    Token.written_cons _ hts, hassign, List.append_nil, hlast, hpassed]
  simp [splitFrom]

theorem forall_ne_bracket_of_isName {word : List Char} (h : isName word = true) :
    ∀ c ∈ word, decide (c ≠ '[') = true := by
  rintro c hc
  refine decide_eq_true ?_
  rintro rfl
  exact absurd (Token.isWordChar_of_isName h '[' hc) (by decide)

theorem target?_name {name : String} (h : isName name.toList = true) :
    target? (written (Target.name name).tokens) = some (.name name) := by
  have hwritten : written (Target.name name).tokens = name.toList :=
    Token.written_singleton (.name name)
  rw [hwritten, target?, List.dropWhile_eq_nil_iff.mpr (forall_ne_bracket_of_isName h)]
  simp [h]

theorem target?_element {name : String} {index : Expr} (h : isName name.toList = true)
    (hindex : index.isWritable = true) :
    target? (written (Target.element name index).tokens) = some (.element name index) := by
  have hwritten : written (Target.element name index).tokens =
      (name.toList ++ [' ']) ++ '[' :: (' ' :: spread index.tokens ++ [']']) := by
    rw [Target.tokens, Token.written_cons _ (List.cons_ne_nil _ _), Token.written_cons _ (by simp),
      Token.written_append _ (List.cons_ne_nil _ _), Token.written_singleton]
    simp [Token.spelling, Mark.spelling]
  have hfront : ∀ c ∈ name.toList ++ [' '], decide (c ≠ '[') = true :=
    List.forall_mem_append.mpr ⟨forall_ne_bracket_of_isName h, by simp⟩
  have htake : (written (Target.element name index).tokens).takeWhile (· ≠ '[') =
      name.toList ++ [' '] := by
    rw [hwritten, List.takeWhile_append_of_pos hfront, List.takeWhile_cons_of_neg (by simp),
      List.append_nil]
  have hdrop : (written (Target.element name index).tokens).dropWhile (· ≠ '[') =
      '[' :: (' ' :: spread index.tokens ++ [']']) := by
    rw [hwritten, List.dropWhile_append_of_pos hfront, List.dropWhile_cons_of_neg (by simp)]
  have htrim : trim (name.toList ++ [' ']) = name.toList := by
    have hspread : trim (spread [.name name]) = written [.name name] :=
      Token.trim_spread (List.forall_mem_singleton.mpr h) (List.cons_ne_nil _ _)
    rwa [Token.spread_singleton, Token.written_singleton] at hspread
  have hclose : List.isSuffixOf? [']'] (' ' :: spread index.tokens ++ [']']) =
      some (' ' :: spread index.tokens) := List.isSuffixOf?_eq_some_iff_append_eq.mpr rfl
  rw [target?, htake, hdrop, htrim]
  dsimp only
  rw [hclose]
  simp [h, (Expr.parse_written hindex).2.2, Except.toOption]

theorem target?_written (h : target.isWritable = true) :
    target? (written target.tokens) = some target := by
  simp only [Target.isWritable, Bool.and_eq_true] at h
  cases target with
  | name name => exact target?_name h.1.1
  | element name index => exact target?_element h.1.1 h.2

theorem assignment?_written (h : target.isWritable = true) {value : Expr}
    (hvalue : value.isWritable = true) :
    assignment? (written (target.tokens ++ .mark .assign :: value.tokens)) =
      some (.assign target value) := by
  have htarget : target? (trim (spread target.tokens)) = some target := by
    rw [Token.trim_spread (Target.isWritable_tokens h) target.tokens_ne_nil]
    exact target?_written h
  rw [assignment?, splitAssignment?_written h value.tokens_ne_nil]
  simp [htarget, (Expr.parse_written hvalue).2.1, Except.toOption]

/-- The first word of an assignment is the name on its left side. -/
theorem exists_written_assign (target : Target) (ts : List Token) :
    ∃ rest, written (target.tokens ++ .mark .assign :: ts) = target.root.toList ++ ' ' :: rest := by
  cases target <;> exact ⟨_, Token.written_cons _ (by simp)⟩

theorem classifyTrimmed_assign (h : target.isWritable = true) {value : Expr}
    (hvalue : value.isWritable = true) :
    classifyTrimmed (written (target.tokens ++ .mark .assign :: value.tokens)) =
      .assign target value := by
  have hassignment := assignment?_written h hvalue
  simp only [Target.isWritable, Bool.and_eq_true, Bool.not_eq_true'] at h
  obtain ⟨⟨hname, hroot⟩, -⟩ := h
  have hne : ∀ word ∈ ["IF", "ELSEIF", "WHILE", "PRINT"], target.root.toList ≠ word.toList := by
    intro word hword heq
    rw [String.toList_inj.mp heq] at hroot
    simp [hword] at hroot
  obtain ⟨rest, hrest⟩ := exists_written_assign target value.tokens
  rw [hrest] at hassignment ⊢
  rw [classifyTrimmed_word rest (List.all_eq_true.mpr (Token.isWordChar_of_isName hname)),
    if_neg (hne _ (by simp)), if_neg (hne _ (by simp)), if_neg (hne _ (by simp)),
    if_neg (hne _ (by simp)), hassignment, Option.getD_some]

end Assignment

/-! ### Statements -/

section Statements

variable {e : Expr} (h : e.isWritable = true)
include h

theorem guard?_written : guard? (written e.tokens) = some e := by
  rw [guard?, (Expr.parse_written h).1]
  rfl

/-- What stands between the first word and the word `THEN`. -/
theorem guard?_condition :
    guard? (dropThen (trim (' ' :: written (e.tokens ++ [.name "THEN"])))) = some e := by
  have htokens := (Expr.isWritable_iff.mp h).1
  have hthen : (Token.name "THEN").spelling = "THEN".toList := rfl
  rw [Token.trim_space_written (List.forall_mem_append.mpr ⟨htokens, by decide⟩),
    Token.written_append _ (List.cons_ne_nil _ _), Token.written_singleton,
    Token.spread_eq e.tokens_ne_nil, hthen, dropThen_append (Token.tight_written htokens)]
  exact guard?_written h

theorem classifyTrimmed_ifThen :
    classifyTrimmed (Line.ifThen (some e)).toChars = .ifThen (some e) := by
  have hchars : (Line.ifThen (some e)).toChars =
      "IF".toList ++ ' ' :: written (e.tokens ++ [.name "THEN"]) := Token.written_cons _ (by simp)
  rw [hchars, classifyTrimmed_word _ (by decide), guard?_condition h]
  rfl

theorem classifyTrimmed_elseIf :
    classifyTrimmed (Line.elseIf (some e)).toChars = .elseIf (some e) := by
  have hchars : (Line.elseIf (some e)).toChars =
      "ELSEIF".toList ++ ' ' :: written (e.tokens ++ [.name "THEN"]) :=
    Token.written_cons _ (by simp)
  rw [hchars, classifyTrimmed_word _ (by decide), guard?_condition h]
  rfl

theorem classifyTrimmed_whileDo :
    classifyTrimmed (Line.whileDo (some e)).toChars = .whileDo (some e) := by
  have hchars : (Line.whileDo (some e)).toChars = "WHILE".toList ++ ' ' :: written e.tokens :=
    Token.written_cons _ e.tokens_ne_nil
  rw [hchars, classifyTrimmed_word _ (by decide),
    Token.trim_space_written (Expr.isWritable_iff.mp h).1, guard?_written h]
  rfl

theorem classifyTrimmed_print : classifyTrimmed (Line.print e).toChars = .print e := by
  have hchars : (Line.print e).toChars = "PRINT".toList ++ ' ' :: written e.tokens :=
    Token.written_cons _ e.tokens_ne_nil
  rw [hchars, classifyTrimmed_word _ (by decide),
    Token.trim_space_written (Expr.isWritable_iff.mp h).1, (Expr.parse_written h).1]
  rfl

theorem isWritable_statement {word : String} (hword : Token.isWritable (.name word) = true) :
    ∀ tok ∈ .name word :: e.tokens, tok.isWritable = true :=
  List.forall_mem_cons.mpr ⟨hword, (Expr.isWritable_iff.mp h).1⟩

theorem isWritable_condition {word : String} (hword : Token.isWritable (.name word) = true) :
    ∀ tok ∈ .name word :: (e.tokens ++ [.name "THEN"]), tok.isWritable = true :=
  List.forall_mem_append.mpr ⟨isWritable_statement h hword, by decide⟩

end Statements

theorem isWritable_tokens {line : Line} (h : line.isWritable = true) :
    ∀ tok ∈ line.tokens, tok.isWritable = true := by
  cases line with
  | blank | endWhile | otherwise | endIf => decide
  | whileDo guard =>
    cases guard with
    | none => cases h
    | some e => exact isWritable_statement h (by decide)
  | ifThen guard =>
    cases guard with
    | none => cases h
    | some e => exact isWritable_condition h (by decide)
  | elseIf guard =>
    cases guard with
    | none => cases h
    | some e => exact isWritable_condition h (by decide)
  | print e => exact isWritable_statement h (by decide)
  | assign target value =>
    simp only [isWritable, Bool.and_eq_true] at h
    exact List.forall_mem_append.mpr ⟨Target.isWritable_tokens h.1,
      List.forall_mem_cons.mpr ⟨rfl, (Expr.isWritable_iff.mp h.2).1⟩⟩
  | unrecognized => cases h

theorem classifyTrimmed_toChars {line : Line} (h : line.isWritable = true) :
    classifyTrimmed line.toChars = line := by
  cases line with
  | blank | endWhile | otherwise | endIf => rfl
  | whileDo guard =>
    cases guard with
    | none => cases h
    | some e => exact classifyTrimmed_whileDo h
  | ifThen guard =>
    cases guard with
    | none => cases h
    | some e => exact classifyTrimmed_ifThen h
  | elseIf guard =>
    cases guard with
    | none => cases h
    | some e => exact classifyTrimmed_elseIf h
  | print e => exact classifyTrimmed_print h
  | assign target value =>
    simp only [isWritable, Bool.and_eq_true] at h
    exact classifyTrimmed_assign h.1 h.2
  | unrecognized => cases h

/-- **A line that is written is read back**, whatever blanks stand around it. -/
theorem classify_toChars {line : Line} (h : line.isWritable = true) {before after : List Char}
    (hbefore : before.all isBlank = true) (hafter : after.all isBlank = true) :
    classify (before ++ line.toChars ++ after) = line := by
  have htight : Text.Tight line.toChars := Token.tight_written (isWritable_tokens h)
  rw [classify, Text.trim_append (List.all_eq_true.mp hbefore) htight (List.all_eq_true.mp hafter)]
  exact classifyTrimmed_toChars h

/-- A comparison inside of brackets, and a text with everything that the readers look for. -/
def tangled : Line :=
  .assign (.element "items" (.binary .eq (.variable "a") (.number (.ofNat 1)))) (.text "x = [THEN")

theorem classify_toChars_tangled :
    tangled.isWritable = true ∧
      classify "\titems [ a == 1 ] = \"x = [THEN\"  ".toList = tangled := by
  have hwritable : tangled.isWritable = true := by decide +kernel
  have hchars : tangled.toChars = "items [ a == 1 ] = \"x = [THEN\"".toList := by decide +kernel
  have hread : classify ("\t".toList ++ tangled.toChars ++ "  ".toList) = tangled :=
    classify_toChars hwritable (by decide) (by decide)
  rw [hchars] at hread
  exact ⟨hwritable, hread⟩

end Line
end DeskCheck
