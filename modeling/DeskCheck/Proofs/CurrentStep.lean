import DeskCheck.Proofs.Windows

/-!
# A move shows the current step

The three panes find their windows by three rules, from scroll counts that any session may have left.
A successful move sets the counts so that the next drawing shows the current step in all of them
(`move_shows_step`): the table its row, the source pane the line that the row names, and the output
pane the newest line, where exactly the lines of this row stand out.

What the panes mark comes from different data: the row from the table, the line from the current
snapshot, and the new lines of output from the snapshot before.  They agree because a table is the
projection of the same trace, and because a snapshot's output begins with that of the one before.
-/

namespace DeskCheck

/-! ### How much is printed -/

/-- A line prints at most one text. -/
theorem Line.length_output_of_replay {l : Nat} {s s' : Snapshot} {line : Line}
    (h : line.replay l s = some s') : s'.output.length ≤ s.output.length + 1 := by
  cases line <;> cases h <;> simp

namespace Program

variable {p : Program} {b : Budget} {i l : Nat} {s : Snapshot}

/-- A snapshot has at most as many lines of output as there are snapshots before it. -/
theorem length_output_le (h : (p.trace b).get? i = some s) : s.output.length ≤ i := by
  induction i generalizing s with
  | zero =>
    rw [get?_zero] at h
    cases h
    exact Nat.le_refl 0
  | succ i ih =>
    obtain ⟨s', hs'⟩ := Trace.exists_get?_of_le (Nat.le_succ i) h
    obtain ⟨l, line, -, hreplay, -, -⟩ := next_of_get? hs' h
    exact Nat.le_trans (Line.length_output_of_replay hreplay) (Nat.succ_le_succ (ih hs'))

/-- The line of a snapshot is a line of the program. -/
theorem line_lt (h : (p.trace b).get? i = some s) (hl : s.line = some l) : l < p.lines.length := by
  cases i with
  | zero =>
    rw [get?_zero] at h
    cases h
    cases hl
  | succ i =>
    obtain ⟨s', hs'⟩ := Trace.exists_get?_of_le (Nat.le_succ i) h
    obtain ⟨k, line, hline, hreplay, -, -⟩ := next_of_get? hs' h
    obtain rfl : k = l := Option.some.inj ((Line.replay_line hreplay).symm.trans hl)
    exact (List.getElem?_eq_some_iff.mp hline).1

/-- Beside its own source lines it is one of these. -/
theorem line_lt_source {source : List String} (h : ((ofLines source).trace b).get? i = some s)
    (hl : s.line = some l) : l < source.length :=
  calc
    l < (ofLines source).size := line_lt h hl
    _ = source.length := (length_source_ofLines source).symm

end Program

namespace Viewer

/-- Each pane has room for a row. -/
structure Division.HasRoom (d : Division) : Prop where
  source : 2 < d.sourceHeight
  output : 2 < d.outputHeight
  table : 3 < d.height

namespace State

variable {s : State} {d : Division}

/-! ### Keys that move -/

/-- The key moves the cursor: a step that is not refused, a number of steps, or a jump. -/
def Moves (s : State) : Key → Prop
  | .left => ∃ c, s.cursor.backward = .ok c
  | .right => ∃ c, s.cursor.forward = .ok c
  | .char c => '1' ≤ c ∧ c ≤ '9'
  | .enter | .backspace => True
  | _ => False

/-- After a move the table and the output are scrolled to the newest row and line. -/
structure Moved (s : State) : Prop where
  tableBack : s.tableBack = 0
  outputOffset : s.outputOffset = scrollLimit

theorem digit_le {c : Char} (h : c ≤ '9') : c.toNat - '0'.toNat ≤ 9 := by
  have hle : c.toNat ≤ '9'.toNat := UInt32.le_iff_toNat_le.mp h
  have hnine : '9'.toNat = 9 + '0'.toNat := rfl
  omega

theorem moved_press {k : Key} (hdigits : ∀ n ≤ 9, s.cursor.position + n < Cursor.wordSize)
    (h : s.Moves k) : (s.press k).Moved := by
  cases k with
  | left =>
    obtain ⟨c, hc⟩ := h
    simp only [press, report, hc]
    exact ⟨rfl, rfl⟩
  | right =>
    obtain ⟨c, hc⟩ := h
    simp only [press, report, hc]
    exact ⟨rfl, rfl⟩
  | char c =>
    have hletter : ¬ (c = 'q' ∨ c = 'Q') := by
      rintro (rfl | rfl)
      · exact absurd h.2 (by decide)
      · exact absurd h.2 (by decide)
    have hdigit : '1' ≤ c ∧ c ≤ '9' := h
    rw [press, if_neg hletter, if_pos hdigit, stepBy,
      Cursor.forwardBy_of_lt (hdigits _ (digit_le hdigit.2))]
    exact ⟨rfl, rfl⟩
  | enter => exact ⟨rfl, rfl⟩
  | backspace => exact ⟨rfl, rfl⟩
  | tab | up | down | other => exact h.elim

/-! ### The windows after a move -/

/-- Scrolled to the newest row, the table is drawn up to it. -/
theorem inView_table (hmoved : s.Moved) (hrow : s.selectedRow < s.revealed.length)
    (hroom : 3 < d.height) :
    InView ((s.settle d).tableOffset d.height) (d.height - 3) s.selectedRow := by
  have hsame : (s.settle d).tableOffset d.height =
      followOffset s.selectedRow s.revealed.length (d.height - 3) := by
    rw [settle_eq, hmoved.tableBack, Nat.zero_min, tableOffset, rowsInView_of_lt hroom]
    rfl
  rw [hsame]
  exact inView_followOffset hrow (by omega)

/-- The pinned row is a row of the pane, so the current line is drawn wherever it is pinned. -/
theorem inView_source {l : Nat} (hcurrent : s.currentLine = l + 1) (hline : l < s.source.length)
    (hroom : 2 < d.sourceHeight) :
    InView (s.settle d).sourceOffset (d.sourceHeight - 2) l := by
  rw [settle_eq]
  simp only [settleSource, rowsInView_of_lt hroom, hcurrent, InView]
  rw [if_pos ⟨Nat.succ_pos l, hline⟩]
  split <;> omega

/-- Scrolled to the limit, the output is drawn up to its end, unless it has more lines than the limit
can stand for. -/
theorem inView_output (hmoved : s.Moved) (hword : s.output.length ≤ scrollLimit)
    (hroom : 2 < d.outputHeight) (hsome : s.output ≠ []) :
    InView (s.settle d).outputOffset (d.outputHeight - 2) (s.output.length - 1) := by
  have hlength : s.output.length ≠ 0 := fun hzero => hsome (List.length_eq_zero_iff.mp hzero)
  rw [settle_eq, settleOutput_eq]
  simp only [if_neg hlength, rowsInView_of_lt hroom, hmoved.outputOffset, InView]
  split <;> omega

/-! ### What is shown -/

/-- The table pane shows a row: it is the last of the revealed rows, which is that of the position, and
in view.  The pane reads as the revealed rows in view, and nothing but this row has a background. -/
structure ShowsRow (s : State) (frame : Frame) (d : Division) (r : Row) : Prop where
  last : s.revealed.getLast? = some r
  place : s.revealed[s.cursor.position]? = some r
  inView : InView (s.tableOffset d.height) (d.height - 3) s.cursor.position
  reads : frame.table.Shows s.revealed (s.tableOffset d.height) (d.height - 3)
  titles : ¬ frame.table.titles.Shaded
  marked : ∀ k row, frame.table.rows[k]? = some row →
    (row.Shaded ↔ s.tableOffset d.height + k = s.cursor.position)

/-- The source pane shows a line: it is in view.  The pane reads as the source lines in view, and this
one is the only one with the sign and the only one that may have a background. -/
structure ShowsLine (s : State) (frame : Frame) (d : Division) (source : List String) (l : Nat) :
    Prop where
  isLine : l < source.length
  inView : InView s.sourceOffset (d.sourceHeight - 2) l
  reads : frame.source.Lists source (l + 1) s.sourceOffset (d.sourceHeight - 2)
  marked : ∀ k spans, frame.source.lines[k]? = some spans →
    (Pointed spans ↔ s.sourceOffset + k = l) ∧ (Shaded spans → s.sourceOffset + k = l)

/-- The output pane shows the texts of a step: if anything has been printed, the newest line is in
view, and of the lines in view those with these texts have a style of their own. -/
structure ShowsOutput (s : State) (frame : Frame) (d : Division) (texts : List String) : Prop where
  inView : s.output ≠ [] → InView s.outputOffset (d.outputHeight - 2) (s.output.length - 1)
  prints : ∃ older newer, s.output = older ++ newer ∧ newer.map OutputLine.text = texts ∧
    (s.output ≠ [] → ∃ pane, frame.output = some pane ∧
      pane.Prints s.output older.length s.outputOffset (d.outputHeight - 2))

variable {t : Trace} {source : List String}

theorem Shows.selectedRow_lt (h : s.Shows t source) : s.selectedRow < s.revealed.length := by
  rw [h.selectedRow, h.length_revealed]
  exact Nat.lt_succ_self _

/-- The row of the position is the last one that is revealed, and the table is drawn up to it. -/
theorem Shows.showsRow {r : Row} (h : s.Shows t source) (hmoved : s.Moved)
    (hr : t.table.rows[s.cursor.position]? = some r) (hroom : 3 < d.height) :
    (s.settle d).ShowsRow ((s.settle d).frame d) d r := by
  have hplace : s.revealed[s.cursor.position]? = some r := by
    rw [revealed, h.table, List.getElem?_take_of_lt (Nat.lt_succ_self _), hr]
  refine ⟨?_, ?_, ?_, ?_, not_shaded_titles _ _, fun k row hrow => ?_⟩
  · have hindex : s.revealed.length - 1 = s.cursor.position := h.selectedRow
    rw [revealed_settle, List.getLast?_eq_getElem?, hindex]
    exact hplace
  · rwa [revealed_settle, cursor_settle]
  · rw [cursor_settle, ← h.selectedRow]
    exact inView_table hmoved h.selectedRow_lt hroom
  · rw [← rowsInView_of_lt hroom]
    exact shows_tablePane _ _
  · rw [cursor_settle, ← h.selectedRow, ← s.selectedRow_settle d]
    exact shaded_tablePane_iff hrow

theorem Shows.showsLine {l : Nat} (h : s.Shows t source) (hcurrent : s.currentLine = l + 1)
    (hline : l < source.length) (hroom : 2 < d.sourceHeight) :
    (s.settle d).ShowsLine ((s.settle d).frame d) d source l := by
  have h' := h.settle d
  have hcurrent' : (s.settle d).currentLine = l + 1 := (s.currentLine_settle d).trans hcurrent
  have hview : InView (s.settle d).sourceOffset (d.sourceHeight - 2) l :=
    inView_source hcurrent (h.source ▸ hline) hroom
  refine ⟨hline, hview, ?_, fun k spans hspans => ?_⟩
  · have hlists := lists_sourcePane (s.settle d) d.sourceHeight
    rwa [h'.source, hcurrent', rowsInView_of_lt hroom] at hlists
  · have hmarked := marked_sourcePane hspans
    rwa [hcurrent', Nat.add_right_cancel_iff] at hmarked

theorem previous?_eq (c : Cursor) : c.previous? = c.trace.before? c.position := by
  match c with
  | ⟨_, 0⟩ => rfl
  | ⟨_, _ + 1⟩ => rfl

/-- The output of a step begins with what had been printed before it, and the rest is that of its
row. -/
theorem Shows.output_row {p : Program} {b : Budget} {snapshot : Snapshot} {r : Row}
    (h : s.Shows (p.trace b) source) (hs : (p.trace b).get? s.cursor.position = some snapshot)
    (hr : (p.trace b).table.rows[s.cursor.position]? = some r) :
    ∃ older newer, s.output = older ++ newer ∧ newer.map OutputLine.text = r.output ∧
      older.length = s.printedBefore := by
  have houtput : s.output = snapshot.output := by rw [output, Cursor.current?, h.trace, hs]
  have hrow : r = Row.ofSnapshot (p.trace b).columns ((p.trace b).before? s.cursor.position)
      snapshot s.cursor.position := by
    rw [Trace.getElem?_rows, hs] at hr
    exact (Option.some.inj hr).symm
  rw [houtput, printedBefore, previous?_eq, h.trace, hrow]
  simp only [Row.ofSnapshot]
  rcases hbefore : (p.trace b).before? s.cursor.position with _ | before
  · exact ⟨[], snapshot.output, rfl, rfl, rfl⟩
  · obtain ⟨newer, hnewer⟩ := (Program.grows_of_before? hs before hbefore).output
    refine ⟨before.output, newer, hnewer.symm, ?_, rfl⟩
    rw [← hnewer]
    simp

theorem Shows.showsOutput {p : Program} {b : Budget} {snapshot : Snapshot} {r : Row}
    (h : s.Shows (p.trace b) source) (hmoved : s.Moved) (hword : s.cursor.position < Cursor.wordSize)
    (hs : (p.trace b).get? s.cursor.position = some snapshot)
    (hr : (p.trace b).table.rows[s.cursor.position]? = some r) (hroom : 2 < d.outputHeight) :
    (s.settle d).ShowsOutput ((s.settle d).frame d) d r.output := by
  have hcurrent : s.cursor.current? = some snapshot := by rw [Cursor.current?, h.trace, hs]
  have hlimit : s.output.length ≤ scrollLimit := by
    have hprinted : s.output.length ≤ s.cursor.position := by
      rw [output, hcurrent]
      exact Program.length_output_le hs
    exact Nat.le_trans hprinted (Nat.le_sub_one_of_lt hword)
  obtain ⟨older, newer, heq, htexts, hlength⟩ := h.output_row hs hr
  have hbefore : (s.settle d).printedBefore = older.length := by rw [hlength, printedBefore_settle]
  refine ⟨fun hsome => ?_, older, newer, by rw [output_settle, heq], htexts, fun hsome => ?_⟩
  · rw [output_settle] at hsome ⊢
    exact inView_output hmoved hlimit hroom hsome
  · have hpane : ((s.settle d).frame d).output = some ((s.settle d).outputPane d.outputHeight) := by
      rw [frame, cursor_settle, hcurrent, Option.map_some]
    refine ⟨_, hpane, ?_⟩
    rw [← hbefore, ← rowsInView_of_lt hroom]
    exact prints_outputPane hsome _

/-- **After a move the viewer shows the current step in all three panes.**  Take any program beside
its own source lines, any session, a key that moves, and a drawing with room in each pane.  The frame
shows the row of the position, which is the row of the current snapshot; if that has a line, it is the
line of the row, and the frame shows it; and the frame shows the output of the row.  The budget of
bytes is a word. -/
theorem move_shows_step (source : List String) (b : Budget) (title : String) (layout : Layout)
    (events : List Event) (k : Key) (width height : Nat) (hbytes : b.bytes < Cursor.wordSize) :
    let t := (Program.ofLines source).trace b
    let s := (ofTrace t source title).after layout events
    let d := layout width height
    s.Moves k → d.HasRoom →
      ∃ s' frame snapshot r,
        (s.press k).draw layout width height = (s', frame) ∧
        s'.cursor = (s.press k).cursor ∧ s'.cursor.current? = some snapshot ∧
        t.table.rows[s'.cursor.position]? = some r ∧ r.line = snapshot.line ∧
        s'.ShowsRow frame d r ∧
        (∀ l, snapshot.line = some l → s'.ShowsLine frame d source l) ∧
        s'.ShowsOutput frame d r.output := by
  intro t s d hmoves hroom
  have hs : s.Shows t source :=
    (shows_ofTrace (Program.ofLines source) b source title).after layout events
  have hshows : (s.press k).Shows t source := hs.press k
  have hmoved : (s.press k).Moved := moved_press (fun n => hs.position_add_lt hbytes) hmoves
  -- the snapshot at the position, and its row
  obtain ⟨snapshot, hsnapshot⟩ : ∃ snapshot, t.get? (s.press k).cursor.position = some snapshot :=
    ⟨_, Array.getElem?_eq_getElem hshows.position⟩
  have hr := Trace.getElem?_rows t (s.press k).cursor.position
  rw [hsnapshot, Option.map_some] at hr
  have hcursor : ((s.press k).settle d).cursor = (s.press k).cursor := cursor_settle _ _
  have hword := hshows.position_add_lt hbytes (Nat.zero_le 9)
  refine ⟨_, _, snapshot, _, rfl, hcursor, ?_, hcursor ▸ hr, rfl,
    hshows.showsRow hmoved hr hroom.table, fun l hl => ?_,
    hshows.showsOutput hmoved hword hsnapshot hr hroom.output⟩
  · show ((s.press k).settle d).cursor.current? = some snapshot
    rw [hcursor, Cursor.current?, hshows.trace, hsnapshot]
  · have hcurrent : (s.press k).currentLine = l + 1 := by
      simp [currentLine, Cursor.current?, hshows.trace, hsnapshot, hl]
    exact hshows.showsLine hcurrent (Program.line_lt_source hsnapshot hl) hroom.source

/-- A listing of one line. -/
def oneLine : List String := ["PRINT 1"]

/-- After a drawing and some scrolling the key that moves to the end shows the line and what it has
printed. -/
theorem move_shows_step_oneLine :
    let t := (Program.ofLines oneLine).trace .standard
    let s := (ofTrace t oneLine "one").after Division.ofScreen [.draw 80 31, .key .tab, .key .up]
    let d := Division.ofScreen 80 31
    Budget.standard.bytes < Cursor.wordSize ∧ s.Moves .enter ∧ d.HasRoom ∧
      ∃ s' frame, s'.cursor = (s.press .enter).cursor ∧
        (s.press .enter).draw Division.ofScreen 80 31 = (s', frame) ∧
        s'.ShowsLine frame d oneLine 0 ∧ s'.ShowsOutput frame d ["1"] := by
  have hbytes : Budget.standard.bytes < Cursor.wordSize := by decide
  have hroom : (Division.ofScreen 80 31).HasRoom := ⟨by decide, by decide, by decide⟩
  refine ⟨hbytes, trivial, hroom, ?_⟩
  obtain ⟨s', frame, snapshot, r, hdraw, hcursor, hcurrent, hr, hline, -, hsource, houtput⟩ :=
    move_shows_step oneLine .standard "one" Division.ofScreen [.draw 80 31, .key .tab, .key .up]
      .enter 80 31 hbytes trivial hroom
  have hlast : s'.cursor.position = 1 := by
    rw [hcursor]
    decide +kernel
  rw [hlast] at hr
  have hrow : r.line = some 0 ∧ r.output = ["1"] := by
    have hrows : (((Program.ofLines oneLine).trace .standard).table.rows[1]?).map
        (fun r => (r.line, r.output)) = some (some 0, ["1"]) := by decide +kernel
    rw [hr] at hrows
    simpa using hrows
  exact ⟨s', frame, hcursor, hdraw, hsource 0 (hline ▸ hrow.1), hrow.2 ▸ houtput⟩

end State
end Viewer
end DeskCheck
