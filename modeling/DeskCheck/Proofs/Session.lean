import DeskCheck.Viewer.Frame
import DeskCheck.Proofs.Navigation
import DeskCheck.Proofs.Recovery

/-!
# Sessions of the viewer

A session is a list of key presses and drawings, in any order and with screens of any sizes, from
the viewer on the first snapshot of a trace on.  How a screen is divided is left open: whatever is
said of a session here holds for every rule.

A key moves the cursor or leaves it where it is (`press_cases`), and never changes the source window
(`listing_press`); a drawing changes nothing but how far the panes are scrolled (`settle_eq`).  So what
is shown stays the same during a session and the cursor stays inside the trace (`Shows.after`), and the
source window is where it was at the beginning or where some drawing has put it (`offset_after`).
-/

namespace DeskCheck

namespace Viewer

/-! ### Sessions -/

/-- What happens to a viewer. -/
inductive Event where
  | key (k : Key)
  | draw (width height : Nat)
deriving DecidableEq, Repr

namespace State

/-- The state after an event. -/
def handle (layout : Layout) (s : State) : Event → State
  | .key k => s.press k
  | .draw width height => (s.draw layout width height).1

/-- The state after a session. -/
def after (layout : Layout) (s : State) (events : List Event) : State :=
  events.foldl (handle layout) s

variable {layout : Layout} {s : State}

theorem after_concat (layout : Layout) (s : State) (events : List Event) (e : Event) :
    s.after layout (events ++ [e]) = (s.after layout events).handle layout e := by
  simp [after]

/-! ### What an event changes -/

/-- A move that is refused changes the status and nothing else. -/
theorem report_cases (s : State) (result : Except CursorError Cursor) (status : String) :
    (∃ c, result = .ok c ∧ s.report result status = s.moved c status) ∨
      ∃ status', s.report result status = { s with status := status' } := by
  unfold report
  split
  · exact .inl ⟨_, rfl, rfl⟩
  · exact .inr ⟨_, rfl⟩
  · exact .inr ⟨_, rfl⟩

/-- Many steps at once are a move, unless their sum with the position is no word. -/
theorem stepBy_cases (s : State) (n : Nat) :
    (∃ c status, s.cursor.MovesTo c ∧ s.stepBy n = s.moved c status) ∨ s.stepBy n = s := by
  rw [stepBy]
  rcases hsome : s.cursor.forwardBy n with _ | ⟨taken, c⟩
  · exact .inr rfl
  · exact .inl ⟨c, _, Cursor.movesTo_of_forwardBy hsome, rfl⟩

/-- A key moves the cursor, and then the table and the output follow it, or it leaves the cursor and
the source window where they are. -/
theorem press_cases (s : State) (k : Key) :
    (∃ c status, s.cursor.MovesTo c ∧ s.press k = s.moved c status) ∨
      ∃ focus pinnedRow tableBack outputOffset quit status,
        s.press k = { s with focus, pinnedRow, tableBack, outputOffset, quit, status } := by
  -- a step is a move unless it is refused
  have hreport : ∀ (result : Except CursorError Cursor) (status : String),
      (∀ c, result = .ok c → s.cursor.MovesTo c) →
        (∃ c status', s.cursor.MovesTo c ∧ s.report result status = s.moved c status') ∨
          ∃ focus pinnedRow tableBack outputOffset quit status', s.report result status =
            { s with focus, pinnedRow, tableBack, outputOffset, quit, status := status' } := by
    intro result status hmove
    rcases s.report_cases result status with ⟨c, hc, heq⟩ | ⟨status', heq⟩
    · exact .inl ⟨c, status, hmove c hc, heq⟩
    · exact .inr ⟨_, _, _, _, _, status', heq⟩
  cases k with
  | char c =>
    simp only [press]
    split
    · exact .inr ⟨_, _, _, _, _, _, rfl⟩
    · split
      · rcases s.stepBy_cases (c.toNat - '0'.toNat) with hmove | hsame
        · exact .inl hmove
        · exact .inr ⟨_, _, _, _, _, _, hsame⟩
      · exact .inr ⟨_, _, _, _, _, _, rfl⟩
  | tab => exact .inr ⟨_, _, _, _, _, _, rfl⟩
  | left => exact hreport _ _ fun _ => Cursor.movesTo_of_backward
  | right => exact hreport _ _ fun _ => Cursor.movesTo_of_forward
  | up => simp only [press, up]; split <;> exact .inr ⟨_, _, _, _, _, _, rfl⟩
  | down => simp only [press, down]; split <;> exact .inr ⟨_, _, _, _, _, _, rfl⟩
  | enter => exact .inl ⟨_, _, s.cursor.movesTo_toEnd, rfl⟩
  | backspace => exact .inl ⟨_, _, s.cursor.movesTo_toStart, rfl⟩
  | other => exact .inr ⟨_, _, _, _, _, _, rfl⟩

/-- A key leaves the listing and its window alone. -/
theorem listing_press (s : State) (k : Key) :
    (s.press k).source = s.source ∧ (s.press k).title = s.title ∧
      (s.press k).sourceOffset = s.sourceOffset := by
  rcases s.press_cases k with ⟨c, status, -, heq⟩ | ⟨_, _, _, _, _, _, heq⟩
  · rw [heq]
    exact ⟨rfl, rfl, rfl⟩
  · rw [heq]
    exact ⟨rfl, rfl, rfl⟩

theorem settleOutput_eq (s : State) (height : Nat) :
    s.settleOutput height =
      { s with outputOffset :=
          if s.output.length = 0 then s.outputOffset
          else if rowsInView height 2 < s.output.length then
            min s.outputOffset (s.output.length - rowsInView height 2)
          else 0 } := by
  simp only [settleOutput]
  split
  · rfl
  · split <;> rfl

/-- A drawing changes how far the panes are scrolled, and nothing else. -/
theorem settle_eq (s : State) (d : Division) :
    s.settle d =
      { s with
        pinnedRow := (s.settleSource d.sourceHeight).pinnedRow
        sourceOffset := (s.settleSource d.sourceHeight).sourceOffset
        outputOffset := (s.settleOutput d.outputHeight).outputOffset
        tableBack := min s.tableBack s.selectedRow } := by
  rw [settle, settleOutput_eq, settleOutput_eq]
  rfl

section Settled

variable (s : State) (d : Division)

@[simp]
theorem cursor_settle : (s.settle d).cursor = s.cursor := by
  rw [settle_eq]

@[simp]
theorem source_settle : (s.settle d).source = s.source := by
  rw [settle_eq]

@[simp]
theorem title_settle : (s.settle d).title = s.title := by
  rw [settle_eq]

@[simp]
theorem focus_settle : (s.settle d).focus = s.focus := by
  rw [settle_eq]

@[simp]
theorem currentLine_settle : (s.settle d).currentLine = s.currentLine := by
  simp only [currentLine, cursor_settle]

@[simp]
theorem output_settle : (s.settle d).output = s.output := by
  simp only [output, cursor_settle]

@[simp]
theorem printedBefore_settle : (s.settle d).printedBefore = s.printedBefore := by
  simp only [printedBefore, cursor_settle]

@[simp]
theorem revealed_settle : (s.settle d).revealed = s.revealed := by
  rw [settle_eq]
  rfl

@[simp]
theorem selectedRow_settle : (s.settle d).selectedRow = s.selectedRow := by
  simp only [selectedRow, revealed_settle]

end Settled

/-! ### What a session shows -/

/-- The viewer shows the trace `t` with its table beside the source lines, from a position inside the
trace. -/
structure Shows (t : Trace) (source : List String) (s : State) : Prop where
  trace : s.cursor.trace = t
  table : s.table = t.table
  source : s.source = source
  position : s.cursor.position < t.size

variable {t : Trace} {source : List String}

theorem Shows.press (h : s.Shows t source) (k : Key) : (s.press k).Shows t source := by
  rcases s.press_cases k with ⟨c, status, hmove, heq⟩ | ⟨_, _, _, _, _, _, heq⟩
  · rw [heq]
    have hinside := hmove.inside
    rw [h.trace] at hinside
    exact ⟨hmove.trace.trans h.trace, h.table, h.source, hinside h.position⟩
  · rw [heq]
    exact ⟨h.trace, h.table, h.source, h.position⟩

theorem Shows.settle (h : s.Shows t source) (d : Division) : (s.settle d).Shows t source := by
  rw [settle_eq]
  exact ⟨h.trace, h.table, h.source, h.position⟩

theorem Shows.handle (h : s.Shows t source) (layout : Layout) (e : Event) :
    (s.handle layout e).Shows t source := by
  cases e with
  | key k => exact h.press k
  | draw width height => exact h.settle _

/-- During a whole session the viewer shows what it has shown at the beginning. -/
theorem Shows.after (h : s.Shows t source) (layout : Layout) (events : List Event) :
    (s.after layout events).Shows t source := by
  induction events generalizing s with
  | nil => exact h
  | cons e events ih => exact ih (h.handle layout e)

theorem shows_ofTrace (p : Program) (b : Budget) (source : List String) (title : String) :
    (ofTrace (p.trace b) source title).Shows (p.trace b) source := by
  obtain ⟨hpos, -⟩ := Array.getElem?_eq_some_iff.mp (Program.get?_zero p b)
  exact ⟨rfl, rfl, rfl, hpos⟩

/-- The traces that fit into a word of bytes are so short that the digits of the keyboard always add up
to a word. -/
theorem Shows.position_add_lt {p : Program} {b : Budget} {n : Nat}
    (h : s.Shows (p.trace b) source) (hbytes : b.bytes < Cursor.wordSize) (hn : n ≤ 9) :
    s.cursor.position + n < Cursor.wordSize := by
  have hsize := p.size_trace_mul_le b
  have hposition := h.position
  simp only [Snapshot.ownBytes, Cursor.wordSize, UInt64.size] at hsize hbytes ⊢
  omega

/-! ### The source window during a session -/

/-- The rows inside the border of the source pane. -/
def sourceRows (d : Division) : Nat := d.sourceHeight - 2

/-- The source window begins at the first line, or in some drawing of the session it ended with the
listing or before. -/
def OffsetFrom (layout : Layout) (events : List Event) (s : State) : Prop :=
  s.sourceOffset = 0 ∨ ∃ width height, .draw width height ∈ events ∧
    s.sourceOffset + sourceRows (layout width height) ≤ s.source.length

theorem OffsetFrom.mono {events events' : List Event} (h : s.OffsetFrom layout events)
    (hsub : events ⊆ events') : s.OffsetFrom layout events' := by
  rcases h with hzero | ⟨width, height, hmem, hle⟩
  · exact .inl hzero
  · exact .inr ⟨width, height, hsub hmem, hle⟩

/-- A drawing leaves the source window where it is, or it brings the window into the listing. -/
theorem sourceOffset_settle (s : State) (d : Division) :
    (s.settle d).sourceOffset = s.sourceOffset ∨ (s.settle d).sourceOffset = 0 ∨
      (s.settle d).sourceOffset + sourceRows d ≤ s.source.length := by
  rw [settle_eq]
  simp only [settleSource, sourceRows]
  by_cases hline : 0 < s.currentLine ∧ s.currentLine ≤ s.source.length
  · rw [if_pos hline]
    by_cases hlong : rowsInView d.sourceHeight 2 < s.source.length
    · -- at least one row counts as in view, so the window ends with the rows of the pane or before
      rw [if_pos hlong]
      simp only [rowsInView] at hlong ⊢
      omega
    · rw [if_neg hlong]
      exact .inr (.inl rfl)
  · rw [if_neg hline]
    exact .inl rfl

theorem OffsetFrom.settle {events : List Event} (h : s.OffsetFrom layout events)
    (width height : Nat) :
    (s.settle (layout width height)).OffsetFrom layout (events ++ [.draw width height]) := by
  rcases s.sourceOffset_settle (layout width height) with hsame | hzero | hinside
  · rw [OffsetFrom, hsame, source_settle]
    exact h.mono (List.subset_append_left _ _)
  · exact .inl hzero
  · refine .inr ⟨width, height, List.mem_append_right _ (List.mem_singleton_self _), ?_⟩
    rwa [source_settle]

theorem OffsetFrom.handle {events : List Event} (h : s.OffsetFrom layout events) (e : Event) :
    (s.handle layout e).OffsetFrom layout (events ++ [e]) := by
  cases e with
  | key k =>
    obtain ⟨hsource, -, hoffset⟩ := s.listing_press k
    rw [State.handle, OffsetFrom, hsource, hoffset]
    exact h.mono (List.subset_append_left _ _)
  | draw width height => exact h.settle width height

/-- The source window of a session that begins at the first line. -/
theorem offset_after (hstart : s.sourceOffset = 0) (layout : Layout) (events : List Event) :
    (s.after layout events).OffsetFrom layout events := by
  induction events using List.reverseRecOn with
  | nil => exact .inl hstart
  | append_singleton events e ih =>
    rw [after_concat]
    exact ih.handle e

end State
end Viewer
end DeskCheck
