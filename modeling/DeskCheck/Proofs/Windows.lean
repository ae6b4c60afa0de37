import DeskCheck.Proofs.Session
import DeskCheck.Proofs.Panes

/-!
# The windows of the panes stay in bounds

Keys change the scroll counts without knowing any size: they count up to the largest word and down to
zero, and a move sets them to the one or the other.  Sizes are known to a drawing alone, and between
two drawings both the sizes and the position may change.

A drawing computes from the counts where the window of each pane begins.  `windows?` is this
computation with every difference, slice and index checked: it fails where a difference would be
below zero or where a row is not there.  In a session it never fails, and it yields the windows that
are drawn (`windows?_eq`).  With the bounds that a drawing leaves the counts in, this is
`session_in_bounds`, for sessions of any length on screens of any sizes.
-/

namespace DeskCheck.Viewer

/-! ### Checked arithmetic -/

/-- A difference that is not below zero. -/
def minus? (a b : Nat) : Option Nat := if b ≤ a then some (a - b) else none

/-- The first `n` items of a list that has so many. -/
def firsts? {α : Type} (items : List α) (n : Nat) : Option (List α) :=
  if n ≤ items.length then some (items.take n) else none

theorem minus?_eq {a b : Nat} (h : b ≤ a) : minus? a b = some (a - b) := if_pos h

theorem firsts?_eq {α : Type} {items : List α} {n : Nat} (h : n ≤ items.length) :
    firsts? items n = some (items.take n) := if_pos h

/-- The first row in view such that `selected` is in view and the window ends within `total`. -/
def followOffset? (selected total height : Nat) : Option Nat :=
  if total ≤ height then some 0
  else do
    let last ← minus? total height
    return min (selected - (height - 1)) last

theorem followOffset?_eq (selected total height : Nat) :
    followOffset? selected total height = some (followOffset selected total height) := by
  rw [followOffset?, followOffset]
  split
  · rfl
  · next hlong =>
    rw [minus?_eq (Nat.le_of_not_le hlong)]
    rfl

/-- The first row of each pane that is in view. -/
structure Windows where
  source : Nat
  output : Nat
  table : Nat
deriving DecidableEq, Repr

namespace State

/-- The first source line in view.  The current line, if there is one, is kept in its pinned row as
far as the listing reaches. -/
def sourceFirst? (s : State) (height : Nat) : Option Nat :=
  let visible := rowsInView height 2
  let row := min (s.pinnedRow.getD (visible / 2)) (visible - 1)
  let total := s.source.length
  if 0 < s.currentLine ∧ s.currentLine ≤ total then do
    let line ← minus? s.currentLine 1
    if visible < total then
      let last ← minus? total visible
      return min (line - row) last
    else return 0
  else some s.sourceOffset

/-- The first line of output in view. -/
def outputFirst? (s : State) (height : Nat) : Option Nat :=
  let visible := rowsInView height 2
  let total := s.output.length
  if total = 0 then some s.outputOffset
  else if visible < total then do
    let last ← minus? total visible
    return min s.outputOffset last
  else some 0

/-- The first row of the table in view, among the rows up to the position. -/
def tableFirst? (s : State) (height : Nat) : Option Nat := do
  let revealed ← firsts? s.table.rows (s.cursor.position + 1)
  let selected ← minus? revealed.length 1
  let last ← minus? selected (min s.tableBack selected)
  followOffset? last revealed.length (rowsInView height 3)

/-- The windows of the three panes. -/
def windows? (s : State) (d : Division) : Option Windows := do
  let source ← s.sourceFirst? d.sourceHeight
  let output ← s.outputFirst? d.outputHeight
  let table ← s.tableFirst? d.height
  return ⟨source, output, table⟩

/-- The style of the cell `i` of a row: the entries begin behind step and line, and the accesses and
the output come behind them. -/
def cellStyle? (r : Row) (i : Nat) : Option Style :=
  if 2 ≤ i ∧ i < 2 + r.entries.length then do
    let column ← minus? i 2
    let entry ← r.entries[column]?
    return if entry.changed then (Style.ink .yellow).strong else .ink .grey
  else if i = 2 + r.entries.length then some (.ink .blue)
  else if 2 + r.entries.length < i then some (.ink .green)
  else some (.ink .text)

/-! ### No step of it fails -/

variable {s : State} {t : Trace} {source : List String}

theorem sourceFirst?_eq (s : State) (height : Nat) :
    s.sourceFirst? height = some (s.settleSource height).sourceOffset := by
  simp only [sourceFirst?, settleSource]
  by_cases hline : 0 < s.currentLine ∧ s.currentLine ≤ s.source.length
  · rw [if_pos hline, if_pos hline, minus?_eq hline.1]
    by_cases hlong : rowsInView height 2 < s.source.length
    · simp [if_pos hlong, minus?_eq hlong.le]
    · simp [if_neg hlong]
  · rw [if_neg hline, if_neg hline]

theorem outputFirst?_eq (s : State) (height : Nat) :
    s.outputFirst? height = some (s.settleOutput height).outputOffset := by
  rw [settleOutput_eq]
  simp only [outputFirst?]
  by_cases hnone : s.output.length = 0
  · rw [if_pos hnone, if_pos hnone]
  · rw [if_neg hnone, if_neg hnone]
    by_cases hlong : rowsInView height 2 < s.output.length
    · simp [if_pos hlong, minus?_eq hlong.le]
    · simp [if_neg hlong]

/-- The rows up to the position are there. -/
theorem Shows.length_revealed (h : s.Shows t source) : s.revealed.length = s.cursor.position + 1 := by
  have hrows : s.table.rows.length = t.size := by rw [h.table, Trace.length_rows]
  have hposition := h.position
  rw [revealed, List.length_take]
  omega

theorem Shows.selectedRow (h : s.Shows t source) : s.selectedRow = s.cursor.position := by
  rw [State.selectedRow, h.length_revealed, Nat.add_sub_cancel]

theorem Shows.tableFirst?_eq (h : s.Shows t source) (d : Division) :
    s.tableFirst? d.height = some ((s.settle d).tableOffset d.height) := by
  have hrows : s.cursor.position + 1 ≤ s.table.rows.length := by
    rw [h.table, Trace.length_rows]
    exact h.position
  have hlength : 1 ≤ s.revealed.length := by rw [h.length_revealed]; omega
  have hfirst : firsts? s.table.rows (s.cursor.position + 1) = some s.revealed := firsts?_eq hrows
  rw [tableFirst?, hfirst, settle_eq]
  simp only [Option.bind_eq_bind, Option.bind_some, minus?_eq hlength]
  rw [minus?_eq (Nat.min_le_right _ _), Option.bind_some, followOffset?_eq]
  rfl

/-- **The windows are computed without leaving any bound**, and they are those that are drawn. -/
theorem Shows.windows?_eq (h : s.Shows t source) (d : Division) :
    s.windows? d = some ⟨(s.settle d).sourceOffset, (s.settle d).outputOffset,
      (s.settle d).tableOffset d.height⟩ := by
  rw [windows?, sourceFirst?_eq, outputFirst?_eq, h.tableFirst?_eq, settle_eq]
  rfl

/-- Every cell of a row has a style, and no entry is asked for that the row does not have. -/
theorem cellStyle?_eq {r : Row} {i : Nat} (hi : i < (cellStyles r).length) :
    cellStyle? r i = some (cellStyles r)[i] := by
  rw [← List.getElem?_eq_getElem hi]
  have hlength : i < r.entries.length + 4 := by
    simp only [cellStyles, List.length_append, List.length_cons, List.length_nil,
      List.length_map] at hi
    omega
  rw [cellStyle?, cellStyles, List.append_assoc]
  by_cases hscalar : 2 ≤ i ∧ i < 2 + r.entries.length
  · -- an entry
    obtain ⟨c, rfl⟩ := Nat.exists_eq_add_of_le' hscalar.1
    have hc : c < r.entries.length := by omega
    rw [if_pos hscalar, minus?_eq hscalar.1]
    simp [hc, List.getElem?_append_left]
  · rw [if_neg hscalar]
    rcases Nat.lt_or_ge i 2 with hlt | hge
    · -- step and line
      rw [if_neg (by omega), if_neg (by omega)]
      obtain rfl | rfl : i = 0 ∨ i = 1 := by omega
      · rfl
      · rfl
    · -- accesses and output
      obtain rfl | rfl : i = 2 + r.entries.length ∨ i = 3 + r.entries.length := by omega
      · simp [Nat.add_comm 2]
      · rw [if_neg (by omega), if_pos (by omega)]
        simp [Nat.add_comm 3]

/-! ### The counts after a drawing -/

theorem Shows.tableBack_settle (h : s.Shows t source) (d : Division) :
    (s.settle d).tableBack ≤ (s.settle d).cursor.position := by
  rw [settle_eq]
  exact Nat.le_trans (Nat.min_le_right _ _) (Nat.le_of_eq h.selectedRow)

theorem pinnedRow_settle (s : State) (d : Division) :
    ∃ row, (s.settle d).pinnedRow = some row ∧ row < rowsInView d.sourceHeight 2 := by
  rw [settle_eq]
  refine ⟨_, rfl, ?_⟩
  simp only [rowsInView]
  omega

theorem outputOffset_settle (s : State) (d : Division) (h : s.output ≠ []) :
    (s.settle d).outputOffset ≤ s.output.length - rowsInView d.outputHeight 2 := by
  have hsome : s.output.length ≠ 0 := fun hzero => h (List.length_eq_zero_iff.mp hzero)
  rw [settle_eq, settleOutput_eq]
  simp only [if_neg hsome]
  split
  · exact Nat.min_le_right _ _
  · exact Nat.zero_le _

/-- **A viewer stays in bounds in every session.**  After any keys and drawings the cursor is inside
the trace, and, the budget of bytes being a word, the position and a digit add up to a word.  No step
of the arithmetic by which a drawing finds its windows and the styles of its cells leaves the bounds;
and behind a drawing the table is scrolled back by at most the position, the pinned row is a row of
the source pane, the source window begins at the first line or ends, for the height of some drawing so
far, with the listing or before, and if there is output its window does not begin behind the last full
one. -/
theorem session_in_bounds (p : Program) (b : Budget) (source : List String) (title : String)
    (layout : Layout) (events : List Event) :
    let s := (ofTrace (p.trace b) source title).after layout events
    s.cursor.position < (p.trace b).size ∧
    (b.bytes < Cursor.wordSize → ∀ n ≤ 9, s.cursor.forwardBy n ≠ none) ∧
    ∀ width height, ∃ s' frame,
      s.draw layout width height = (s', frame) ∧
      let d := layout width height
      s.windows? d = some ⟨s'.sourceOffset, s'.outputOffset, s'.tableOffset d.height⟩ ∧
      (∀ r ∈ s'.revealed, ∀ i < (r.cells Entry.currentText).length,
        cellStyle? r i = (cellStyles r)[i]? ∧ (cellStyles r)[i]? ≠ none) ∧
      s'.tableBack ≤ s'.cursor.position ∧
      (∃ row, s'.pinnedRow = some row ∧ row < max (d.sourceHeight - 2) 1) ∧
      (s'.sourceOffset = 0 ∨ ∃ w h, .draw w h ∈ events ++ [.draw width height] ∧
        s'.sourceOffset + ((layout w h).sourceHeight - 2) ≤ source.length) ∧
      (s'.output ≠ [] → s'.outputOffset ≤ s'.output.length - max (d.outputHeight - 2) 1) := by
  intro s
  have hshows : s.Shows (p.trace b) source := (shows_ofTrace p b source title).after layout events
  refine ⟨hshows.position, fun hbytes n hn hnone => ?_, fun width height => ?_⟩
  · exact Nat.not_le_of_lt (hshows.position_add_lt hbytes hn) (Cursor.forwardBy_eq_none_iff.mp hnone)
  refine ⟨_, _, rfl, hshows.windows?_eq _, ?_, hshows.tableBack_settle _, s.pinnedRow_settle _, ?_, ?_⟩
  · intro r _ i hi
    rw [← length_cellStyles] at hi
    rw [cellStyle?_eq hi, List.getElem?_eq_getElem hi]
    exact ⟨rfl, Option.some_ne_none _⟩
  · have hoffset := (offset_after rfl layout events).settle (s := s) width height
    rwa [OffsetFrom, (hshows.settle _).source] at hoffset
  · rw [output_settle]
    exact s.outputOffset_settle _

/-- A session on a screen of eighty columns, with the table scrolled back by more rows than there
are. -/
def scrolledBack : List Event :=
  [.key .enter, .draw 80 31, .key .tab, .key .up, .key .up, .key .up]

/-- The next drawing, on a screen with hardly a row, scrolls the table back by no more than the
position, and nine steps on are no problem for the arithmetic. -/
theorem session_in_bounds_scrolledBack :
    let s := (ofTrace (Program.trace ⟨[], [.print (.text "hi")]⟩ .standard) ["PRINT \"hi\""] "hi").after
      Division.ofScreen scrolledBack
    s.tableBack = 3 ∧ s.cursor.position = 1 ∧
      Budget.standard.bytes < Cursor.wordSize ∧ 9 ≤ 9 ∧ s.cursor.forwardBy 9 ≠ none ∧
      ∃ s' frame, s.draw Division.ofScreen 10 1 = (s', frame) ∧ s'.tableBack ≤ s'.cursor.position := by
  have hbytes : Budget.standard.bytes < Cursor.wordSize := by decide
  obtain ⟨-, hdigit, hdraw⟩ := session_in_bounds ⟨[], [.print (.text "hi")]⟩ .standard
    ["PRINT \"hi\""] "hi" Division.ofScreen scrolledBack
  obtain ⟨s', frame, hframe, -, -, hback, -⟩ := hdraw 10 1
  exact ⟨rfl, rfl, hbytes, Nat.le_refl 9, hdigit hbytes 9 (Nat.le_refl 9), s', frame, hframe, hback⟩

end State
end DeskCheck.Viewer
