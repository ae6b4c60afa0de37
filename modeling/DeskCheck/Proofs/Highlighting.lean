import DeskCheck.Viewer.Highlight
import DeskCheck.Proofs.Separation

/-!
# Highlighting loses nothing

A source line is coloured by a scan of its own, which has a word or a quoted text in hand and hands it
on as a span.  Nothing gets lost on the way: the spans, one behind the other, are the line
(`flatMap_text_spansFrom`), and none of them is empty.

The scanner of expressions reads the same line with more modes.  The two agree about quotes: one is in
a quoted text where the other is in a text, and has read the same characters of it (`InStep`).  Every
character keeps them in step, so the quoted spans are the texts among the tokens, in order
(`InStep.quotations_eq`).  `spans_lossless` has it all, for every line.
-/

namespace DeskCheck

/-! ### Quotations -/

/-- What a token quotes. -/
def Token.quotation? : Token → Option String
  | .text s => some s
  | _ => none

/-- What a span that begins with quotes has between them; the closing ones may be missing. -/
def Viewer.Span.quotation? (s : Span) : Option String :=
  match s.text with
  | '"' :: rest =>
    some (String.ofList (if rest.getLast? = some '"' then rest.dropLast else rest))
  | _ => none

namespace Token

variable {mode : Mode} {c : Char}

/-- What tokens quote, in order. -/
def quotations (tokens : List Token) : List String := tokens.filterMap quotation?

theorem quotations_append (a b : List Token) : quotations (a ++ b) = quotations a ++ quotations b :=
  List.filterMap_append

/-- The scanner goes into a text and out of it at quotes alone. -/
theorem isText_advance (mode : Mode) (c : Char) :
    (advance mode c).2.isText = (mode.isText ^^ decide (c = '"')) := by
  have hstep := congrArg Nesting.quoted (step_advance mode 0 c)
  rw [Nesting.quoted_step] at hstep
  exact hstep.symm

theorem quotations_close (h : mode.isText = false) : quotations mode.close = [] := by
  have hword : ∀ word, (ofWord word).quotation? = none := by
    intro word
    rw [ofWord]
    split <;> rfl
  cases mode with
  | between => rfl
  | word read => simp [quotations, Mode.close, hword]
  | number read pointed => rfl
  | text read => cases h
  | opening o => cases o <;> rfl

theorem quotations_begin (c : Char) : quotations (begin c).1 = [] := by
  unfold begin
  repeat' split
  all_goals rfl

/-- What a character completes outside of a text quotes nothing. -/
theorem quotations_advance (h : mode.isText = false) : quotations (advance mode c).1 = [] := by
  have hboth : quotations (mode.close ++ (begin c).1) = [] := by
    rw [quotations_append, quotations_close h, quotations_begin, List.append_nil]
  cases mode with
  | between => exact quotations_begin c
  | text read => cases h
  | word read =>
    rw [advance]
    split
    · rfl
    · exact hboth
  | number read pointed =>
    rw [advance]
    split
    · rfl
    · split
      · rfl
      · exact hboth
  | opening o =>
    rw [advance]
    split
    · cases o <;> rfl
    · exact hboth

theorem advance_quote (h : mode.isText = false) : (advance mode '"').2 = .text [] := by
  cases mode with
  | text read => cases h
  | between | word | number | opening => rfl

end Token

namespace Viewer

variable {style : Style} {inner : List Char}

theorem Span.quotation?_closed (inner : List Char) (style : Style) :
    Span.quotation? ⟨'"' :: (inner ++ ['"']), style⟩ = some (String.ofList inner) := by
  simp [quotation?]

theorem Span.quotation?_open (h : '"' ∉ inner) :
    Span.quotation? ⟨'"' :: inner, style⟩ = some (String.ofList inner) := by
  have hlast : inner.getLast? ≠ some '"' := fun hlast => h (List.mem_of_getLast? hlast)
  simp [quotation?, hlast]

theorem Span.quotation?_eq_none {text : List Char} (h : '"' ∉ text) :
    Span.quotation? ⟨text, style⟩ = none := by
  unfold quotation?
  split
  · next rest htext =>
    obtain rfl : text = '"' :: rest := htext
    exact absurd List.mem_cons_self h
  · rfl

namespace Highlight

/-! ### Nothing is lost -/

/-- The characters that the scan has in hand, in reverse. -/
def Mode.read : Mode → List Char
  | .word read => read
  | .quoted read => read

theorem flatMap_text_wordSpan (word : List Char) : (wordSpan word).flatMap Span.text = word := by
  unfold wordSpan
  split
  · next h => rw [h]; rfl
  · simp

/-- The spans are what the scan has in hand and the rest of the line. -/
theorem flatMap_text_spansFrom (mode : Mode) (line : List Char) :
    (spansFrom mode line).flatMap Span.text = mode.read.reverse ++ line := by
  fun_induction spansFrom mode line with
  | case1 read => rw [flatMap_text_wordSpan, List.append_nil]; rfl
  | case2 read => simp [Mode.read]
  | case3 read rest ih => rw [List.flatMap_append, flatMap_text_wordSpan, ih]; rfl
  | case4 read c rest _ _ ih => rw [ih]; simp [Mode.read]
  | case5 read c rest _ _ ih =>
    rw [List.flatMap_append, flatMap_text_wordSpan, List.flatMap_cons, ih]
    rfl
  | case6 read rest ih => rw [List.flatMap_cons, ih]; simp [Mode.read]
  | case7 read c rest _ ih => rw [ih]; simp [Mode.read]

theorem text_ne_nil_of_mem_wordSpan {word : List Char} : ∀ s ∈ wordSpan word, s.text ≠ [] := by
  unfold wordSpan
  split
  · exact fun _ h => absurd h List.not_mem_nil
  · next h => exact List.forall_mem_singleton.mpr h

/-- In hand are a word, or a text with its opening quotes at least. -/
def Mode.Begun : Mode → Prop
  | .word _ => True
  | .quoted read => read ≠ []

theorem text_ne_nil_of_mem_spansFrom {mode : Mode} (h : mode.Begun) (line : List Char) :
    ∀ s ∈ spansFrom mode line, s.text ≠ [] := by
  fun_induction spansFrom mode line with
  | case1 read => exact text_ne_nil_of_mem_wordSpan
  | case2 read => exact List.forall_mem_singleton.mpr (mt List.reverse_eq_nil_iff.mp h)
  | case3 read rest ih =>
    exact List.forall_mem_append.mpr ⟨text_ne_nil_of_mem_wordSpan, ih (List.cons_ne_nil _ _)⟩
  | case4 read c rest _ _ ih => exact ih trivial
  | case5 read c rest _ _ ih =>
    refine List.forall_mem_append.mpr ⟨text_ne_nil_of_mem_wordSpan, ?_⟩
    exact List.forall_mem_cons.mpr ⟨List.cons_ne_nil _ _, ih trivial⟩
  | case6 read rest ih =>
    refine List.forall_mem_cons.mpr ⟨?_, ih trivial⟩
    exact mt List.reverse_eq_nil_iff.mp (List.cons_ne_nil _ _)
  | case7 read c rest _ ih => exact ih (List.cons_ne_nil _ _)

/-! ### Two scans in step -/

/-- What spans quote, in order. -/
def quotations (spans : List Span) : List String := spans.filterMap Span.quotation?

theorem quotations_append (a b : List Span) : quotations (a ++ b) = quotations a ++ quotations b :=
  List.filterMap_append

theorem quotations_wordSpan {word : List Char} (h : '"' ∉ word) : quotations (wordSpan word) = [] := by
  unfold wordSpan
  split
  · rfl
  · simp [quotations, Span.quotation?_eq_none h]

/-- The two scans are outside of quotes, or inside, with the same characters behind the opening
ones. -/
inductive InStep : Mode → Token.Mode → Prop
  | outside {read : List Char} {mode : Token.Mode} :
      '"' ∉ read → mode.isText = false → InStep (.word read) mode
  | inside {read : List Char} : '"' ∉ read → InStep (.quoted (read ++ ['"'])) (.text read)

/-- A character keeps the two scans in step, and what it completes in the one quotes the same as what
it completes in the other. -/
theorem InStep.advance {mode : Mode} {mode' : Token.Mode} (h : InStep mode mode') (c : Char) :
    ∃ spans next, (∀ line, spansFrom mode (c :: line) = spans ++ spansFrom next line) ∧
      InStep next (Token.advance mode' c).2 ∧
      quotations spans = Token.quotations (Token.advance mode' c).1 := by
  cases h with
  | @outside read mode' hread htext =>
    have hword : quotations (wordSpan read.reverse) = [] :=
      quotations_wordSpan (mt List.mem_reverse.mp hread)
    have htokens : Token.quotations (Token.advance mode' c).1 = [] := Token.quotations_advance htext
    by_cases hquote : c = '"'
    · -- both go into the text
      subst hquote
      refine ⟨wordSpan read.reverse, .quoted ['"'], fun line => rfl, ?_, hword.trans htokens.symm⟩
      rw [Token.advance_quote htext]
      exact .inside List.not_mem_nil
    · have hstays : (Token.advance mode' c).2.isText = false := by
        rw [Token.isText_advance, htext, decide_eq_false hquote]
        rfl
      by_cases hchar : Text.isAlphanumeric c ∨ c = '_' ∨ (c = '.' ∧ read ≠ [])
      · refine ⟨[], .word (c :: read), fun line => ?_, .outside ?_ hstays, htokens.symm⟩
        · rw [spansFrom, if_neg hquote, if_pos hchar]
          rfl
        · exact List.not_mem_cons_of_ne_of_not_mem (Ne.symm hquote) hread
      · refine ⟨wordSpan read.reverse ++ [⟨[c], charStyle c⟩], .word [], fun line => ?_,
          .outside List.not_mem_nil hstays, ?_⟩
        · rw [spansFrom, if_neg hquote, if_neg hchar, List.append_assoc]
          rfl
        · have halone : '"' ∉ [c] := fun hmem => hquote (List.mem_singleton.mp hmem).symm
          rw [quotations_append, hword, htokens]
          simp [quotations, Span.quotation?_eq_none halone]
  | @inside read hread =>
    by_cases hquote : c = '"'
    · -- both come out of it
      subst hquote
      have hspan : ('"' :: (read ++ ['"'])).reverse = '"' :: (read.reverse ++ ['"']) := by simp
      refine ⟨[⟨('"' :: (read ++ ['"'])).reverse, .ink .orange⟩], .word [], fun line => rfl,
        .outside List.not_mem_nil rfl, ?_⟩
      rw [hspan]
      simp [quotations, Span.quotation?_closed, Token.advance, Token.Mode.close, Token.quotations,
        Token.quotation?]
    · have hmode : (Token.advance (.text read) c) = ([], .text (c :: read)) := if_neg hquote
      refine ⟨[], .quoted (c :: (read ++ ['"'])), fun line => ?_, ?_, ?_⟩
      · rw [spansFrom, if_neg hquote]
        rfl
      · rw [hmode]
        exact .inside (List.not_mem_cons_of_ne_of_not_mem (Ne.symm hquote) hread)
      · rw [hmode]
        rfl

/-- Scans in step find the same quotations in the rest of a line. -/
theorem InStep.quotations_eq {mode : Mode} {mode' : Token.Mode} (h : InStep mode mode')
    (line : List Char) :
    quotations (spansFrom mode line) =
      Token.quotations ((Token.run mode' line).1 ++ (Token.run mode' line).2.close) := by
  induction line generalizing mode mode' with
  | nil =>
    cases h with
    | outside hread htext =>
      rw [spansFrom, quotations_wordSpan (mt List.mem_reverse.mp hread)]
      exact (Token.quotations_close htext).symm
    | @inside read hread =>
      have hspan : (read ++ ['"']).reverse = '"' :: read.reverse := List.reverse_concat
      rw [spansFrom, hspan]
      simp [quotations, Span.quotation?_open (mt List.mem_reverse.mp hread), Token.run,
        Token.Mode.close, Token.quotations, Token.quotation?]
  | cons c line ih =>
    obtain ⟨spans, next, hspans, hnext, hquotations⟩ := h.advance c
    rw [hspans, quotations_append, ih hnext, hquotations, ← Token.quotations_append, Token.run,
      List.append_assoc]

/-- **The spans of a line are the line, and quote what its tokens quote.**  For every line: the texts
of the spans, one behind the other, are its characters; no span is empty; and what stands between the
quotes of the spans that begin with quotes, the closing ones of which may be missing, are the texts
among the tokens of the line, in the same order. -/
theorem spans_lossless (line : String) :
    (spans line.toList).flatMap Span.text = line.toList ∧
    (∀ s ∈ spans line.toList, s.text ≠ []) ∧
    (spans line.toList).filterMap Span.quotation? =
      (Token.ofString line).filterMap Token.quotation? := by
  have hbegun : Mode.Begun (.word []) := trivial
  have hstart : InStep (.word []) .between := .outside List.not_mem_nil rfl
  exact ⟨flatMap_text_spansFrom _ _, text_ne_nil_of_mem_spansFrom hbegun _,
    hstart.quotations_eq line.toList⟩

/-- A text whose closing quotes are missing, behind one with nothing in it. -/
example :
    (spans "x.y = \"\" + 2.5 \"é".toList).filterMap Span.quotation? = ["", "é"] := by decide

end Highlight
end Viewer
end DeskCheck
