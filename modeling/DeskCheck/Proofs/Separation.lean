import DeskCheck.Proofs.AssignmentSign
import DeskCheck.Proofs.Spelling
import Mathlib.Algebra.Ring.Parity

/-!
# Blanks separate tokens

A blank outside of quotes ends whatever token is being read, so a text may be cut there into two that
are read apart.  Inside of quotes it is a character of the text like any other, and no such cut keeps
the tokens.  Which of the two it is, the quotes in front of the blank tell: the scanner is in a text
behind an odd number of them, whatever else it has read (`isText_run`).  So a blank separates exactly
if an even number of quotes is in front of it (`ofString_separates_iff`).
-/

namespace DeskCheck

open Text (isBlank)

/-! ### The parity of the quotes -/

namespace Nesting

theorem quoted_step (n : Nesting) (c : Char) :
    (n.step c).quoted = (n.quoted ^^ decide (c = '"')) := by
  grind [step]

/-- Behind an odd number of quotes one is inside if one has been outside before, and the other way
round. -/
theorem quoted_after (n : Nesting) (text : List Char) :
    (n.after text).quoted = (n.quoted ^^ decide (Odd (text.count '"'))) := by
  induction text generalizing n with
  | nil => simp [after]
  | cons c text ih =>
    rw [after, List.foldl_cons, ← after, ih, quoted_step, List.count_cons]
    by_cases hc : c = '"'
    · have hodd : decide (Odd (text.count '"' + 1)) = !decide (Odd (text.count '"')) := by
        rw [← decide_not, decide_eq_decide]
        exact Nat.odd_add_one
      rw [if_pos (beq_iff_eq.mpr hc), hodd, decide_eq_true hc, Bool.xor_assoc, Bool.true_xor]
    · rw [if_neg (mt beq_iff_eq.mp hc), Nat.add_zero, decide_eq_false hc, Bool.xor_false]

end Nesting

namespace Token

variable {a b : List Char} {w : Char}

theorem Mode.isText_iff {mode : Mode} : mode.isText = true ↔ ∃ read, mode = .text read := by
  cases mode <;> simp [isText]

/-- The scanner is in a text exactly behind an odd number of quotes. -/
theorem isText_run (text : List Char) :
    (run .between text).2.isText = decide (Odd (text.count '"')) := by
  have hafter := congrArg Nesting.quoted (Nesting.after_run .between 0 text)
  rw [Nesting.quoted_after] at hafter
  simpa [Mode.isText] using hafter.symm

/-! ### At a blank -/

/-- Outside of quotes a blank ends what is being read, and the rest is read as from the front. -/
theorem scan_append_blank (hw : isBlank w = true) (heven : Even (a.count '"')) :
    scan (a ++ w :: b) = scan a ++ scan b := by
  have houtside : ∀ read, (run .between a).2 ≠ .text read := by
    intro read hmode
    have htext := isText_run a
    rw [hmode] at htext
    exact Nat.not_odd_iff_even.mpr heven (of_decide_eq_true htext.symm)
  simp only [scan, run_append, run, advance_blank hw houtside, List.append_assoc]

/-- What is read from inside of quotes begins with a text, which goes on with what has been read of
it. -/
theorem exists_run_text (read text : List Char) :
    ∃ more rest, (run (.text read) text).1 ++ (run (.text read) text).2.close =
      .text (String.ofList (read.reverse ++ more)) :: rest := by
  induction text generalizing read with
  | nil => exact ⟨[], [], by simp [run, Mode.close]⟩
  | cons c text ih =>
    by_cases hc : c = '"'
    · exact ⟨[], _, by simp [run, advance, hc, Mode.close]; rfl⟩
    · obtain ⟨more, rest, heq⟩ := ih (c :: read)
      refine ⟨c :: more, rest, ?_⟩
      simpa [run, advance, hc] using heq

/-- Inside of quotes a blank is part of the text that is being read, so it does not end it. -/
theorem scan_append_blank_ne (hw : isBlank w = true) (hodd : Odd (a.count '"')) :
    scan (a ++ w :: b) ≠ scan a ++ scan b := by
  have hquote : w ≠ '"' := by
    rintro rfl
    exact absurd hw (by decide)
  obtain ⟨read, hmode⟩ : ∃ read, (run .between a).2 = .text read := by
    rw [← Mode.isText_iff, isText_run]
    exact decide_eq_true hodd
  obtain ⟨more, rest, heq⟩ := exists_run_text (w :: read) b
  have hleft : scan (a ++ w :: b) =
      (run .between a).1 ++ .text (String.ofList ((w :: read).reverse ++ more)) :: rest := by
    rw [← heq]
    simp [scan, run_append, run, hmode, advance, hquote]
  have hright : scan a ++ scan b =
      (run .between a).1 ++ .text (String.ofList read.reverse) :: scan b := by
    simp [scan, hmode, Mode.close]
  intro hsame
  rw [hleft, hright] at hsame
  -- the text with the blank in it is longer
  obtain ⟨htext, -⟩ := List.cons.inj (List.append_cancel_left hsame)
  have hlength := congrArg List.length (String.ofList_injective (Token.text.inj htext))
  simp at hlength

/-- **A blank separates tokens exactly if the quotes in front of it pair up.**  Then the tokens of
the whole are those of the two sides, whatever the first side ends in and the second begins with. -/
theorem ofString_separates_iff (a b : String) {w : Char} (hw : isBlank w = true) :
    ofString (a ++ String.singleton w ++ b) = ofString a ++ ofString b ↔
      Even (a.toList.count '"') := by
  have hchars : (a ++ String.singleton w ++ b).toList = a.toList ++ w :: b.toList := by simp
  rw [ofString, ofString, ofString, hchars]
  constructor
  · intro hsame
    by_contra hodd
    exact scan_append_blank_ne hw (Nat.not_even_iff_odd.mp hodd) hsame
  · exact scan_append_blank hw

/-- A blank of three bytes behind a text in quotes, a mark that waits for an equals sign, and in front
of quotes that are not closed. -/
theorem ofString_separates_open :
    isBlank '\u2003' = true ∧ Even ("\"a b\" <".toList.count '"') ∧
      ofString ("\"a b\" <" ++ String.singleton '\u2003' ++ "= \"c") =
        ofString "\"a b\" <" ++ ofString "= \"c" := by
  have hblank : isBlank '\u2003' = true := by decide
  have heven : Even ("\"a b\" <".toList.count '"') := by decide
  exact ⟨hblank, heven, (ofString_separates_iff _ _ hblank).mpr heven⟩

end Token
end DeskCheck
