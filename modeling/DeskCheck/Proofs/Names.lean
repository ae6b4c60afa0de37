import DeskCheck.Proofs.AssignmentSign
import DeskCheck.Proofs.Rendering
import DeskCheck.Proofs.Targets

/-!
# Names

Two readers tell names from other texts.  A line is read as an assignment to a name if the whole
left side is one (`Line.isName`); the scanner cuts words out of a text, skips what begins no token,
and looks each word up among the keywords.  What the scanner takes for a name is one to the reader of
lines as well, in whatever text it stands (`Token.isName_of_mem_scan`): while a word is being read, it
begins and goes on as a word does (`Mode.Sound`).  And a name is read as itself and nothing else.

So the names that some line can assign are those texts that are read as a single name, which is the
text itself, and those that are expressions which read the variable of their own name
(`Line.assignable_iff_readable`).
-/

namespace DeskCheck

open Text (isBlank trim)

namespace Token

variable {word : List Char} {c : Char} {mode : Mode} {ts us : List Token} {name : String}

/-! ### Words -/

/-- A character that begins a word, and characters with which it goes on. -/
def IsWord (word : List Char) : Prop :=
  ∃ c rest, word = c :: rest ∧ isWordStart c = true ∧ ∀ d ∈ rest, isWordChar d = true

theorem isWord_singleton (h : isWordStart c = true) : IsWord [c] :=
  ⟨c, [], rfl, h, List.forall_mem_nil _⟩

theorem IsWord.concat (h : IsWord word) (hc : isWordChar c = true) : IsWord (word ++ [c]) := by
  obtain ⟨first, rest, rfl, hfirst, hrest⟩ := h
  exact ⟨first, rest ++ [c], rfl, hfirst,
    List.forall_mem_append.mpr ⟨hrest, List.forall_mem_singleton.mpr hc⟩⟩

/-- A name is a word that is not found among the keywords. -/
theorem isName_iff : Line.isName word = true ↔
    IsWord word ∧ (Keyword.all.find? fun k => k.spelling.toList = word) = none := by
  cases word with
  | nil => simp [Line.isName, IsWord]
  | cons c rest => simp [Line.isName, IsWord]

/-- A word that the scanner takes for a name is one. -/
theorem isName_of_ofWord (h : IsWord word) (hname : ofWord word = .name name) :
    Line.isName name.toList = true := by
  rw [ofWord] at hname
  split at hname
  · cases hname
  · next hfind =>
    cases hname
    rw [String.toList_ofList]
    exact isName_iff.mpr ⟨h, hfind⟩

/-! ### The names among the tokens of a text -/

/-- What the scanner takes for a name among the tokens is one. -/
def Named (ts : List Token) : Prop := ∀ name, .name name ∈ ts → Line.isName name.toList = true

theorem named_nil : Named [] := fun _ hmem => absurd hmem List.not_mem_nil

theorem named_mark (m : Mark) : Named [.mark m] := by
  intro name hmem
  cases List.mem_singleton.mp hmem

theorem Named.append (hts : Named ts) (hus : Named us) : Named (ts ++ us) := fun name hmem =>
  (List.mem_append.mp hmem).elim (hts name) (hus name)

namespace Mode

/-- What has been read of a word is a word. -/
def Sound : Mode → Prop
  | .word read => IsWord read.reverse
  | .between | .number _ _ | .text _ | .opening _ => True

theorem Sound.named_close (h : mode.Sound) : Named mode.close := by
  cases mode with
  | between => exact named_nil
  | word read =>
    intro name hmem
    exact isName_of_ofWord h (List.mem_singleton.mp hmem).symm
  | number read pointed =>
    intro name hmem
    cases List.mem_singleton.mp hmem
  | text read =>
    intro name hmem
    cases List.mem_singleton.mp hmem
  | opening o =>
    cases o with
    | bang => exact named_nil
    | assign | less | greater => exact named_mark _

end Mode

/-- A character that begins something new completes at most a mark, and the first character of a word
is a word. -/
theorem sound_begin (c : Char) : Named (begin c).1 ∧ (begin c).2.Sound := by
  unfold begin
  split_ifs with _ _ hstart
  · exact ⟨named_nil, trivial⟩
  · exact ⟨named_nil, trivial⟩
  · exact ⟨named_nil, isWord_singleton hstart⟩
  · split
    · exact ⟨named_nil, trivial⟩
    · split
      · exact ⟨named_mark _, trivial⟩
      · exact ⟨named_nil, trivial⟩

namespace Mode

/-- A transition completes what has been read, or goes on with it. -/
theorem Sound.advance (h : mode.Sound) (c : Char) :
    Named (advance mode c).1 ∧ (advance mode c).2.Sound := by
  obtain ⟨hnamed, hsound⟩ := sound_begin c
  have hcloses : Named (mode.close ++ (begin c).1) := h.named_close.append hnamed
  cases mode with
  | between => exact ⟨hnamed, hsound⟩
  | word read =>
    rw [Token.advance]
    split_ifs with hc
    · refine ⟨named_nil, ?_⟩
      show IsWord (c :: read).reverse
      rw [List.reverse_cons]
      exact IsWord.concat h hc
    · exact ⟨hcloses, hsound⟩
  | number read pointed =>
    rw [Token.advance]
    split_ifs
    · exact ⟨named_nil, trivial⟩
    · exact ⟨named_nil, trivial⟩
    · exact ⟨hcloses, hsound⟩
  | text read =>
    rw [Token.advance]
    split_ifs
    · exact ⟨h.named_close, trivial⟩
    · exact ⟨named_nil, trivial⟩
  | opening o =>
    rw [Token.advance]
    split_ifs
    · cases o <;> exact ⟨named_mark _, trivial⟩
    · exact ⟨hcloses, hsound⟩

theorem Sound.run (h : mode.Sound) (text : List Char) :
    Named (run mode text).1 ∧ (run mode text).2.Sound := by
  induction text generalizing mode with
  | nil => exact ⟨named_nil, h⟩
  | cons c text ih =>
    obtain ⟨hnamed, hsound⟩ := h.advance c
    obtain ⟨hlater, hlast⟩ := ih hsound
    exact ⟨hnamed.append hlater, hlast⟩

end Mode

/-- What the scanner takes for a name in a text is one. -/
theorem isName_of_mem_scan {text : List Char} (h : .name name ∈ scan text) :
    Line.isName name.toList = true := by
  have hbetween : Mode.between.Sound := trivial
  obtain ⟨hnamed, hsound⟩ := hbetween.run text
  exact hnamed.append hsound.named_close name h

/-- A name is read as itself, and what is read as itself is a name. -/
theorem ofString_eq_name_iff : ofString name = [.name name] ↔ Line.isName name.toList = true := by
  constructor
  · intro h
    have hmem : .name name ∈ ofString name := by
      rw [h]
      exact List.mem_singleton_self _
    exact isName_of_mem_scan hmem
  · intro h
    have hscan := (spells_name h).scan_eq
    rwa [String.ofList_toList] at hscan

end Token

/-! ### Names as expressions -/

namespace Expr

variable {text : List Char} {name : String}

/-- The tree of a sentence is a variable only if its name is among the tokens. -/
theorem name_mem_of_derives {t : Tier} {ts : List Token} (h : Derives t ts (.variable name)) :
    .name name ∈ ts := by
  generalize he : Expr.variable name = e at h
  induction h with
  | paren _ ih => exact List.mem_append_left _ (List.mem_cons_of_mem _ (ih he))
  | operand _ _ ih => exact ih he
  | _ =>
    -- no other sentence than the name alone has such a tree
    cases he <;> exact List.mem_singleton_self _

/-- A text that reads a variable has the name of it among its tokens: a bracket that is missing behind
them is no name. -/
theorem isName_of_parse (h : parse text = .ok (.variable name)) :
    Line.isName name.toList = true := by
  obtain ⟨rest, read, missing, hread⟩ := Line.exists_reading h
  have hmem : .name name ∈ read := by
    rcases List.mem_append.mp (name_mem_of_derives hread.sentence) with hmem | hmissing
    · exact hmem
    · rcases hread.closers _ hmissing with hcloser | hcloser <;> cases hcloser
  have hscan : .name name ∈ Token.scan text := by
    rw [hread.split]
    exact List.mem_append_left _ hmem
  exact Token.isName_of_mem_scan hscan

theorem parse_eq_variable_iff :
    parse name.toList = .ok (.variable name) ↔ Line.isName name.toList = true := by
  refine ⟨isName_of_parse, fun h => ?_⟩
  have hspells := Token.spells_name h
  rw [String.ofList_toList] at hspells
  exact parse_of_spells hspells (Nat.zero_le _)

end Expr

/-! ### Names as targets -/

namespace Line

variable {line : List Char} {target : Target} {value : Expr} {name : String}

/-- What an assignment is to is a name, with or without an index. -/
theorem isName_root (h : classify line = .assign target value) :
    isName target.root.toList = true := by
  obtain ⟨left, right, -, htarget, -⟩ := exists_of_classify_eq_assign h
  rcases target?_cases htarget with ⟨hname, rfl⟩ | ⟨before, inner, index, -, -, hname, -, rfl⟩
  · rwa [Target.root, String.toList_ofList]
  · rwa [Target.root, String.toList_ofList]

/-- An assignment to a name has the name, and blanks, on its left side. -/
theorem trim_left_eq {left right : List Char} (h : classify line = .assign (.name name) value)
    (hsplit : splitAssignment? (trim line) = some (left, right)) : trim left = name.toList := by
  obtain ⟨left', right', hsplit', htarget, -⟩ := exists_of_classify_eq_assign h
  obtain ⟨rfl, -⟩ := Prod.mk.inj (Option.some.inj (hsplit.symm.trans hsplit'))
  rcases target?_cases htarget with ⟨-, heq⟩ | ⟨before, inner, index, -, -, -, -, heq⟩
  · rw [Target.name.inj heq, String.toList_ofList]
  · cases heq

/-! #### A line that assigns a name -/

/-- A line without blanks has a keyword as its first word only if it is the keyword. -/
theorem afterWord?_eq_none {word : String} (hblank : ∀ c ∈ line, isBlank c = false)
    (hne : line ≠ word.toList) : afterWord? word line = none := by
  cases hcut : List.isPrefixOf? word.toList line with
  | none => simp [afterWord?, hcut]
  | some rest =>
    obtain rfl := List.isPrefixOf?_eq_some_iff_append_eq.mp hcut
    rw [afterWord?_append]
    cases rest with
    | nil => exact absurd (List.append_nil _) hne
    | cons c rest => simp [hblank c (by simp)]

/-- What a line is in which there are no blanks and an equals sign. -/
theorem classify_of_not_isBlank (hblank : ∀ c ∈ line, isBlank c = false) (hsign : '=' ∈ line) :
    classify line = (assignment? line).getD .unrecognized := by
  have htrim : trim line = line := (Text.tight_of_not_isBlank hblank).trim_eq
  have hne : ∀ word : List Char, '=' ∉ word → line ≠ word := by
    rintro word hword rfl
    exact hword hsign
  rw [classify, htrim, classifyTrimmed, if_neg (hne _ (by simp)), if_neg (hne _ (by decide)),
    if_neg (hne _ (by decide)), if_neg (hne _ (by decide)),
    afterWord?_eq_none hblank (hne _ (by decide)), afterWord?_eq_none hblank (hne _ (by decide)),
    afterWord?_eq_none hblank (hne _ (by decide)), afterWord?_eq_none hblank (hne _ (by decide))]

/-- An equals sign that stands alone behind a text that the search passes over is the assignment
sign. -/
theorem splitAssignment?_of_passes {left right : List Char} (hleft : Passes 0 left)
    (halone : StandsAlone left.getLast? right.head?) :
    splitAssignment? (left ++ '=' :: right) = some (left, right) := by
  have hstep := splitFrom_step left.reverse .outside '=' right
  rw [List.head?_reverse, if_pos ⟨rfl, rfl, halone⟩, List.reverse_reverse] at hstep
  rw [splitAssignment?, hleft, List.append_nil]
  exact hstep

section Name

variable (h : isName name.toList = true)
include h

/-- The sign between two names is the assignment sign. -/
theorem splitAssignment?_self :
    splitAssignment? (name.toList ++ '=' :: name.toList) = some (name.toList, name.toList) := by
  have hword := Token.isWordChar_of_isName h
  have hcomparing : ∀ c ∈ comparing, c ∉ name.toList := by
    intro c hc hmem
    have hnone : comparing.all (!Token.isWordChar ·) = true := by decide
    exact absurd (hword c hmem) (by simpa using List.all_eq_true.mp hnone c hc)
  have halone : StandsAlone name.toList.getLast? name.toList.head? :=
    ⟨fun p hp hlast => hcomparing p hp (List.mem_of_getLast? hlast),
      fun hfirst => hcomparing '=' (by decide) (List.mem_of_mem_head? hfirst)⟩
  have hsolid : ∀ c ∈ name.toList, Token.isSolid c = true := fun c hc =>
    Token.isSolid_of_isWordChar (hword c hc)
  have hpasses : Passes 0 name.toList :=
    passes_solid hsolid fun hsign => absurd hsign (hcomparing '=' (by decide))
  exact splitAssignment?_of_passes hpasses halone

/-- A line that assigns to a name the value of it.  No blank is in it, so that it is an assignment
also if the name is the first word of another statement. -/
theorem classify_self :
    classify (name.toList ++ '=' :: name.toList) = .assign (.name name) (.variable name) := by
  have hblank : ∀ c ∈ name.toList, isBlank c = false := fun c hc =>
    Token.isBlank_of_isSolid (Token.isSolid_of_isWordChar (Token.isWordChar_of_isName h c hc))
  have hline : ∀ c ∈ name.toList ++ '=' :: name.toList, isBlank c = false :=
    List.forall_mem_append.mpr ⟨hblank, List.forall_mem_cons.mpr ⟨by decide, hblank⟩⟩
  have htrim : trim name.toList = name.toList := (Text.tight_of_not_isBlank hblank).trim_eq
  have htarget := target?_name h
  rw [Target.tokens, Token.written_singleton, Token.spelling] at htarget
  rw [classify_of_not_isBlank hline (by simp), assignment?, splitAssignment?_self h]
  simp [htrim, htarget, Expr.parse_eq_variable_iff.mpr h, Except.toOption]

end Name

/-! #### Assigning and reading -/

/-- Behind a visit of an assignment to a name the store has the value that was assigned. -/
theorem get?_store_visit {lines : List Line} {m : Machine}
    (hline : lines[m.counter]? = some (.assign (.name name) value)) :
    (m.visit lines).1.store.get? name = some (value.eval m.store).value := by
  have hstore : (m.visit lines).1.store = m.store.assign name (value.eval m.store).value := by
    rw [Machine.visit, hline]
    rfl
  rw [hstore, Store.get?_assign, if_pos rfl]

/-- **The names that can be assigned are those that can be read.**  A text is a name to the reader of
lines exactly if the scanner reads it as a single name that is the whole text, and exactly if it is the
expression that has the variable of this name as its tree.  Each such text is assigned by some line; and
a text that is read in another way, be it a keyword, a number, several tokens or none, is nothing that a
line assigns to, and not the name of a sequence an element of which it assigns.  The name that a line
assigns stands on its left side as it is, and behind a visit of the line the expression of this name
has the value that was assigned. -/
theorem assignable_iff_readable (t : String) :
    (isName t.toList = true ↔ Token.ofString t = [.name t]) ∧
    (Expr.parse t.toList = .ok (.variable t) ↔ Token.ofString t = [.name t]) ∧
    ((∃ line value, classify line = .assign (.name t) value) ↔ Token.ofString t = [.name t]) ∧
    (Token.ofString t ≠ [.name t] → ∀ line target value, classify line = .assign target value →
      target.root ≠ t) ∧
    (∀ line value, classify line = .assign (.name t) value →
      (∃ left right, splitAssignment? (trim line) = some (left, right) ∧ trim left = t.toList) ∧
      ∀ lines (m : Machine), lines[m.counter]? = some (classify line) →
        ∃ e, Expr.parse t.toList = .ok e ∧
          e.eval (m.visit lines).1.store = .pure (value.eval m.store).value) := by
  refine ⟨Token.ofString_eq_name_iff.symm, ?_, ⟨?_, ?_⟩, ?_, ?_⟩
  · rw [Token.ofString_eq_name_iff, Expr.parse_eq_variable_iff]
  · rintro ⟨line, value, hread⟩
    exact Token.ofString_eq_name_iff.mpr (isName_root hread)
  · intro hname
    exact ⟨_, _, classify_self (Token.ofString_eq_name_iff.mp hname)⟩
  · rintro hname line target value hread rfl
    exact hname (Token.ofString_eq_name_iff.mpr (isName_root hread))
  · intro line value hread
    obtain ⟨left, right, hsplit, -⟩ := exists_of_classify_eq_assign hread
    refine ⟨⟨left, right, hsplit, trim_left_eq hread hsplit⟩, fun lines m hline => ?_⟩
    rw [hread] at hline
    refine ⟨_, Expr.parse_eq_variable_iff.mpr (isName_root hread), ?_⟩
    rw [Expr.eval, get?_store_visit hline]
    rfl

/-- An assignment to the first word of another statement, which no blank separates from the sign. -/
def assignsIf : List Char := "\tIF=true".toList

/-- A keyword is nothing that a line assigns to; the first word of a statement is, and is read back. -/
theorem assignable_iff_readable_words :
    (Token.ofString "NOT" ≠ [.name "NOT"] ∧
      ∀ line target value, classify line = .assign target value → target.root ≠ "NOT") ∧
    classify assignsIf = .assign (.name "IF") (.boolean true) ∧
    Token.ofString "IF" = [.name "IF"] ∧
    (∃ left right, splitAssignment? (trim assignsIf) = some (left, right) ∧
      trim left = "IF".toList) ∧
    ∃ e, Expr.parse "IF".toList = .ok e ∧
      e.eval (Machine.start.visit [classify assignsIf]).1.store = .pure (.boolean true) := by
  have hkeyword : Token.ofString "NOT" ≠ [.name "NOT"] := by decide
  have hassigns : classify assignsIf = .assign (.name "IF") (.boolean true) := rfl
  obtain ⟨-, -, hassignable, -, hread⟩ := assignable_iff_readable "IF"
  obtain ⟨hleft, hback⟩ := hread _ _ hassigns
  exact ⟨⟨hkeyword, (assignable_iff_readable "NOT").2.2.2.1 hkeyword⟩, hassigns,
    hassignable.mp ⟨_, _, hassigns⟩, hleft, hback [classify assignsIf] .start rfl⟩

end Line
end DeskCheck
