import DeskCheck.Viewer.Frame
import DeskCheck.Proofs.Highlighting

/-!
# What the panes are given

Each pane is given the items in view of a list: the revealed rows of the table, the source lines, the
printed lines.  What the pane reads as is what the items read as, in order and with nothing left out
or put between (`State.shows_tablePane`, `State.lists_sourcePane`, `State.prints_outputPane`).

Two marks tell a row from the others: a background, which any part of the row may have, and a sign in
front of the row.  In the table pane only the last revealed row has a background
(`State.shaded_tablePane_iff`), and in the source pane only the current line has the sign, and a
background (`State.marked_sourcePane`), wherever they are in view.  In the output pane the texts of the
current step have a style of their own.
-/

namespace DeskCheck.Viewer

/-! ### Items in view -/

/-- Row `i` is one of the `height` rows in view from row `first` on. -/
def InView (first height i : Nat) : Prop := first ≤ i ∧ i < first + height

/-- The items in view, each with its place in the list. -/
def itemsInView {α : Type} (items : List α) (first height : Nat) : List (α × Nat) :=
  (items.zipIdx.drop first).take height

theorem inView_followOffset {selected total height : Nat} (hselected : selected < total)
    (hheight : 0 < height) : InView (followOffset selected total height) height selected := by
  unfold followOffset InView
  split <;> omega

theorem rowsInView_of_lt {height taken : Nat} (h : taken < height) :
    rowsInView height taken = height - taken :=
  Nat.max_eq_left (Nat.le_sub_of_add_le (by omega))

/-- What is made of the items in view is made of the item at the place. -/
theorem exists_item_of_getElem? {α β : Type} {items : List α} {first height k : Nat}
    {f : α × Nat → β} {b : β} (h : ((itemsInView items first height).map f)[k]? = some b) :
    ∃ item, items[first + k]? = some item ∧ b = f (item, first + k) := by
  rw [List.getElem?_map, itemsInView, List.getElem?_take] at h
  split at h
  · rw [List.getElem?_drop, List.getElem?_zipIdx, Option.map_map, Nat.zero_add] at h
    obtain ⟨item, hitem, heq⟩ := Option.map_eq_some_iff.mp h
    exact ⟨item, hitem, heq.symm⟩
  · cases h

/-! ### What a pane reads as -/

/-- The pane reads as the rows in view. -/
def Grid.Shows (pane : Grid) (rows : List Row) (first height : Nat) : Prop :=
  pane.rows.map (fun row => row.cells.map Span.text) =
    (itemsInView rows first height).map fun (r, _) => r.cells Entry.currentText

/-- What a line of the listing reads as, counted from zero: a sign in front of the current one, its
number and its text. -/
def listingText (current : Bool) (line : String) (index : Nat) : List Char :=
  (if current then '▶' else ' ') :: numberText 3 (index + 1) ++ ' ' :: line.toList

/-- The pane reads as the source lines in view; the current line is counted from one. -/
def Listing.Lists (pane : Listing) (source : List String) (current first height : Nat) : Prop :=
  pane.lines.map (fun spans => spans.flatMap Span.text) =
    (itemsInView source first height).map fun (line, index) =>
      listingText (index + 1 = current) line index

/-- The pane consists of the printed lines in view, each behind the number of its line.  The first
`old` of all lines have one style, and those behind them another one, which is green and strong. -/
def Listing.Prints (pane : Listing) (output : List OutputLine) (old first height : Nat) : Prop :=
  ∃ oldStyle newStyle, oldStyle ≠ newStyle ∧ newStyle = (Style.ink .green).strong ∧
    pane.lines = (itemsInView output first height).map fun (o, index) =>
      [⟨numberText 3 (o.line + 1) ++ [' '], .ink .grey⟩,
        ⟨o.text.toList, if index < old then oldStyle else newStyle⟩]

/-! ### Marks -/

/-- Some part of the row has a background. -/
def GridRow.Shaded (row : GridRow) : Prop :=
  row.base.background ≠ none ∨ ∃ cell ∈ row.cells, cell.style.background ≠ none

/-- Some part of the line has a background. -/
def Shaded (spans : List Span) : Prop := ∃ span ∈ spans, span.style.background ≠ none

/-- The line begins with the sign of the current one. -/
def Pointed (spans : List Span) : Prop := (spans.flatMap Span.text).head? = some '▶'

/-! ### Highlighted source lines -/

namespace Highlight

theorem background_wordStyle (word : List Char) : (wordStyle word).background = none := by
  simp only [wordStyle]
  repeat' split
  all_goals rfl

theorem background_wordSpan (word : List Char) : ∀ s ∈ wordSpan word, s.style.background = none := by
  intro s hs
  simp only [wordSpan] at hs
  split at hs
  · cases hs
  · rw [List.mem_singleton.mp hs]
    exact background_wordStyle word

theorem background_charStyle (c : Char) : (charStyle c).background = none := by
  simp only [charStyle]
  split <;> rfl

/-- No text of a source line has a background of its own. -/
theorem background_spansFrom (mode : Mode) (line : List Char) :
    ∀ s ∈ spansFrom mode line, s.style.background = none := by
  fun_induction spansFrom mode line with
  | case1 read => exact background_wordSpan _
  | case2 read => exact List.forall_mem_singleton.mpr rfl
  | case3 read rest ih => exact List.forall_mem_append.mpr ⟨background_wordSpan _, ih⟩
  | case4 read c rest hquote hword ih => exact ih
  | case5 read c rest hquote hword ih =>
    refine List.forall_mem_append.mpr ⟨background_wordSpan _, ?_⟩
    exact List.forall_mem_cons.mpr ⟨background_charStyle c, ih⟩
  | case6 read rest ih => exact List.forall_mem_cons.mpr ⟨rfl, ih⟩
  | case7 read c rest hquote ih => exact ih

end Highlight

namespace State

variable {s : State} {height : Nat}

/-! ### The table pane -/

theorem length_cellStyles (r : Row) (entryText : Entry → String) :
    (cellStyles r).length = (r.cells entryText).length := by
  simp [cellStyles, Row.cells]

theorem background_cellStyles (r : Row) : ∀ style ∈ cellStyles r, style.background = none := by
  intro style hstyle
  simp only [cellStyles, List.mem_append, List.mem_cons, List.mem_map, List.not_mem_nil,
    or_false] at hstyle
  rcases hstyle with ((rfl | rfl) | ⟨e, -, rfl⟩) | rfl | rfl
  · rfl
  · rfl
  · split <;> rfl
  · rfl
  · rfl

/-- A row of the table reads as its cells. -/
theorem texts_tableRow (r : Row) (current : Bool) :
    (tableRow r current).cells.map Span.text = r.cells Entry.currentText := by
  have hspans : (tableRow r current).cells =
      ((r.cells Entry.currentText).zip (cellStyles r)).map fun (text, style) => ⟨text, style⟩ :=
    List.map_uncurry_zip_eq_zipWith.symm
  rw [hspans, List.map_map]
  exact List.map_fst_zip (Nat.le_of_eq (length_cellStyles r _).symm)

theorem shaded_tableRow_iff {r : Row} {current : Bool} :
    (tableRow r current).Shaded ↔ current = true := by
  have hcells : ∀ cell ∈ (tableRow r current).cells, cell.style.background = none := by
    intro cell hcell
    rw [tableRow, ← List.map_uncurry_zip_eq_zipWith] at hcell
    obtain ⟨⟨text, style⟩, hmem, rfl⟩ := List.mem_map.mp hcell
    exact background_cellStyles r style (List.of_mem_zip hmem).2
  constructor
  · rintro (hbase | ⟨cell, hcell, hshade⟩)
    · cases current with
      | true => rfl
      | false => exact absurd rfl hbase
    · exact absurd (hcells cell hcell) hshade
  · rintro rfl
    exact .inl (Option.some_ne_none _)

theorem shows_tablePane (s : State) (height : Nat) :
    (s.tablePane height).Shows s.revealed (s.tableOffset height) (rowsInView height 3) := by
  rw [Grid.Shows, tablePane, List.map_map]
  exact List.map_congr_left fun (r, index) _ => texts_tableRow r (index = s.selectedRow)

/-- The last revealed row is the only one in the table pane with a background. -/
theorem shaded_tablePane_iff {k : Nat} {row : GridRow} (h : (s.tablePane height).rows[k]? = some row) :
    row.Shaded ↔ s.tableOffset height + k = s.selectedRow := by
  obtain ⟨r, -, rfl⟩ := exists_item_of_getElem? h
  rw [shaded_tableRow_iff, decide_eq_true_eq]

theorem not_shaded_titles (s : State) (height : Nat) : ¬ (s.tablePane height).titles.Shaded := by
  rintro (hbase | ⟨cell, hcell, hshade⟩)
  · exact hbase rfl
  · obtain ⟨title, -, rfl⟩ := List.mem_map.mp hcell
    exact hshade rfl

/-! ### The source pane -/

/-- No character of a line is lost in its spans. -/
theorem text_sourceLine (s : State) (line : String) (index : Nat) :
    (s.sourceLine line index).flatMap Span.text =
      listingText (index + 1 = s.currentLine) line index := by
  have hbody : (Highlight.spans line.toList).flatMap Span.text = line.toList :=
    Highlight.flatMap_text_spansFrom _ _
  by_cases hcurrent : index + 1 = s.currentLine
  · simp [sourceLine, listingText, hcurrent, List.flatMap_map, hbody]
  · simp [sourceLine, listingText, hcurrent, hbody]

theorem lists_sourcePane (s : State) (height : Nat) :
    (s.sourcePane height).Lists s.source s.currentLine s.sourceOffset (rowsInView height 2) := by
  rw [Listing.Lists, sourcePane, List.map_map]
  exact List.map_congr_left fun (line, index) _ => s.text_sourceLine line index

theorem pointed_sourceLine_iff {line : String} {index : Nat} :
    Pointed (s.sourceLine line index) ↔ index + 1 = s.currentLine := by
  rw [Pointed, text_sourceLine, listingText]
  by_cases hcurrent : index + 1 = s.currentLine <;> simp [hcurrent]

/-- A source line has a background only if it is the current one. -/
theorem not_shaded_sourceLine {line : String} {index : Nat} (h : index + 1 ≠ s.currentLine) :
    ¬ Shaded (s.sourceLine line index) := by
  rw [sourceLine]
  simp only [if_neg h]
  rintro ⟨span, hspan, hshade⟩
  rcases List.mem_cons.mp hspan with rfl | hbody
  · exact hshade rfl
  · exact hshade (Highlight.background_spansFrom _ _ span hbody)

/-- The current line is the only one in the source pane with the sign; no other line has a
background. -/
theorem marked_sourcePane {k : Nat} {spans : List Span} (h : (s.sourcePane height).lines[k]? = some spans) :
    (Pointed spans ↔ s.sourceOffset + k + 1 = s.currentLine) ∧
      (Shaded spans → s.sourceOffset + k + 1 = s.currentLine) := by
  obtain ⟨line, -, rfl⟩ := exists_item_of_getElem? h
  refine ⟨pointed_sourceLine_iff, fun hshaded => ?_⟩
  by_contra hother
  exact not_shaded_sourceLine hother hshaded

/-! ### The output pane -/

/-- The printed lines in view, with a style for those that the current step has printed. -/
theorem prints_outputPane (hsome : s.output ≠ []) (height : Nat) :
    (s.outputPane height).Prints s.output s.printedBefore s.outputOffset (rowsInView height 2) := by
  refine ⟨outputStyle false, outputStyle true, by decide, rfl, ?_⟩
  rw [outputPane, if_neg hsome]
  refine List.map_congr_left fun (o, index) _ => ?_
  rcases Nat.lt_or_ge index s.printedBefore with hold | hnew
  · simp [outputLine, Span.ofString, hold, Nat.not_le.mpr hold]
  · simp [outputLine, Span.ofString, hnew, Nat.not_lt.mpr hnew]

end State
end DeskCheck.Viewer
