import DeskCheck.Proofs.CurrentStep

/-!
# Scrolling the listing

The source pane has no scroll count of its own.  A drawing at a step with a line keeps that line in the
pinned row, as far as the listing reaches, and so it puts the window where the line, the row and the
sizes alone demand (`sourceOffset_settle_line`).  A drawing at the step before the first line has no
line to keep and leaves the window where it is (`sourceOffset_settle_start`).

The window behind a session is therefore where the last of its drawings at a line has put it, and at
the first line if there is none (`sourceOffset_after`).  At every position but the first one the
next drawing forgets that and two sessions that meet there show the same lines; at the first position
it does not (`window_of_position`).
-/

namespace DeskCheck.Viewer

/-- An event of a walk through the trace: a key that does not scroll or pass on the focus, or a drawing
of one size. -/
def Event.Walks (width height : Nat) : Event → Prop
  | .key .up | .key .down | .key .tab => False
  | .key _ => True
  | .draw w h => w = width ∧ h = height

namespace State

variable {s s' : State} {d : Division} {layout : Layout} {width height : Nat}

/-! ### Where a drawing puts the window -/

/-- The row of the source pane in which a drawing keeps the current line. -/
def keptRow (s : State) (d : Division) : Nat :=
  min (s.pinnedRow.getD (rowsInView d.sourceHeight 2 / 2)) (rowsInView d.sourceHeight 2 - 1)

/-- The first line in view with line `l` in the row, or as close to it as the listing allows. -/
def firstFor (d : Division) (total row l : Nat) : Nat :=
  min (l - row) (total - rowsInView d.sourceHeight 2)

theorem pinnedRow_settle_eq (s : State) (d : Division) :
    (s.settle d).pinnedRow = some (s.keptRow d) := by
  rw [settle_eq]
  rfl

theorem sourceOffset_settle_line {l : Nat} (hcurrent : s.currentLine = l + 1)
    (hl : l < s.source.length) :
    (s.settle d).sourceOffset = firstFor d s.source.length (s.keptRow d) l := by
  rw [settle_eq]
  simp only [settleSource, hcurrent, firstFor, keptRow]
  rw [if_pos ⟨Nat.succ_pos l, hl⟩]
  split <;> omega

theorem sourceOffset_settle_start (hcurrent : s.currentLine = 0) :
    (s.settle d).sourceOffset = s.sourceOffset := by
  rw [settle_eq]
  simp only [settleSource, hcurrent]
  rw [if_neg (fun h => Nat.lt_irrefl 0 h.1)]

/-- A drawing shows the lines of the listing from `first` on: the window begins there, and the pane
reads as these lines, as many as count as in view. -/
structure ShowsLines (drawn : State × Frame) (source : List String) (d : Division) (first : Nat) :
    Prop where
  offset : drawn.1.sourceOffset = first
  reads : drawn.2.source.Lists source drawn.1.currentLine first (rowsInView d.sourceHeight 2)

theorem showsLines_draw {source : List String} {first : Nat} (hsource : s.source = source)
    (hoffset : (s.settle (layout width height)).sourceOffset = first) :
    ShowsLines (s.draw layout width height) source (layout width height) first := by
  refine ⟨hoffset, ?_⟩
  rw [← hoffset, ← hsource, ← s.source_settle (layout width height)]
  exact lists_sourcePane _ _

/-- The lines of the source pane depend on the listing, its window and the current line. -/
theorem lines_sourcePane_congr (hsource : s'.source = s.source)
    (hline : s'.currentLine = s.currentLine) (hoffset : s'.sourceOffset = s.sourceOffset) :
    (s'.sourcePane height).lines = (s.sourcePane height).lines := by
  have hlines : ∀ line index, s'.sourceLine line index = s.sourceLine line index := by
    intro line index
    simp only [sourceLine, hline]
  simp only [sourcePane, hsource, hoffset, hlines]

/-! ### The window during a session -/

/-- Where an event puts the source window: a drawing at a line does so, and nothing else. -/
def placement? (layout : Layout) (s : State) : Event → Option Nat
  | .key _ => none
  | .draw width height =>
    if s.currentLine ≠ 0 then
      let d := layout width height
      some (firstFor d s.source.length (s.keptRow d) (s.currentLine - 1))
    else none

/-- Where the drawings of a session put the source window, in order. -/
def placements (layout : Layout) : State → List Event → List Nat
  | _, [] => []
  | s, e :: events => (s.placement? layout e).toList ++ placements layout (s.handle layout e) events

section Program

variable {source : List String} {b : Budget}

/-- Only the first step of a trace has no line. -/
theorem Shows.currentLine_cases (h : s.Shows ((Program.ofLines source).trace b) source) :
    (s.cursor.position = 0 ∧ s.currentLine = 0) ∨
      (s.cursor.position ≠ 0 ∧ ∃ l, s.currentLine = l + 1 ∧ l < source.length) := by
  have hcurrent : s.cursor.current? =
      ((Program.ofLines source).trace b).get? s.cursor.position := by
    rw [Cursor.current?, h.trace]
  rcases hposition : s.cursor.position with _ | i
  · rw [hposition, Program.get?_zero] at hcurrent
    exact .inl ⟨rfl, by rw [currentLine, hcurrent]; rfl⟩
  · have hinside := h.position
    rw [hposition] at hcurrent hinside
    obtain ⟨snapshot, hs⟩ : ∃ snapshot, ((Program.ofLines source).trace b).get? (i + 1) = some snapshot :=
      ⟨_, Array.getElem?_eq_getElem hinside⟩
    obtain ⟨before, hbefore⟩ := Trace.exists_get?_of_le (Nat.le_succ i) hs
    obtain ⟨l, line, -, hreplay, -, -⟩ := Program.next_of_get? hbefore hs
    have hl : snapshot.line = some l := Line.replay_line hreplay
    refine .inr ⟨Nat.succ_ne_zero i, l, ?_, ?_⟩
    · rw [currentLine, hcurrent, hs, Option.bind_some, hl]
    · exact Program.line_lt_source hs hl

theorem Shows.currentLine_eq_zero (h : s.Shows ((Program.ofLines source).trace b) source)
    (hposition : s.cursor.position = 0) : s.currentLine = 0 := by
  rcases h.currentLine_cases with ⟨-, hzero⟩ | ⟨hne, -⟩
  · exact hzero
  · exact absurd hposition hne

theorem Shows.sourceOffset_handle (h : s.Shows ((Program.ofLines source).trace b) source) (e : Event) :
    (s.handle layout e).sourceOffset = (s.placement? layout e).getD s.sourceOffset := by
  cases e with
  | key k => exact (s.listing_press k).2.2
  | draw width height =>
    show (s.settle (layout width height)).sourceOffset = _
    rw [placement?]
    rcases h.currentLine_cases with ⟨-, hnone⟩ | ⟨-, l, hl, hlt⟩
    · rw [sourceOffset_settle_start hnone, if_neg (not_not_intro hnone)]
      rfl
    · rw [sourceOffset_settle_line hl (h.source ▸ hlt), if_pos (by simp [hl]), hl]
      rfl

/-- Behind a session the source window is where the last drawing at a line has put it. -/
theorem Shows.sourceOffset_after (h : s.Shows ((Program.ofLines source).trace b) source)
    (layout : Layout) (events : List Event) :
    (s.after layout events).sourceOffset =
      ((s.placements layout events).getLast?).getD s.sourceOffset := by
  induction events generalizing s with
  | nil => rfl
  | cons e events ih =>
    have hrest : (s.after layout (e :: events)).sourceOffset = _ := ih (h.handle layout e)
    rw [hrest, h.sourceOffset_handle, placements, List.getLast?_append]
    -- a later placement goes before that of `e`
    cases ((s.handle layout e).placements layout events).getLast? with
    | some first => rfl
    | none => cases s.placement? layout e <;> rfl

/-! ### Walks -/

/-- `s'` is `s` somewhere else in the trace, with the row of the current line pinned as before. -/
structure WalksTo (s s' : State) : Prop where
  focus : s'.focus = s.focus
  pinnedRow : s'.pinnedRow = s.pinnedRow

theorem walksTo_refl (s : State) : s.WalksTo s := ⟨rfl, rfl⟩

theorem WalksTo.trans {s'' : State} (h : s.WalksTo s') (h' : s'.WalksTo s'') : s.WalksTo s'' :=
  ⟨h'.focus.trans h.focus, h'.pinnedRow.trans h.pinnedRow⟩

theorem walksTo_press {k : Key} (h : (Event.key k).Walks width height) : s.WalksTo (s.press k) := by
  have hreport : ∀ result status, s.WalksTo (s.report result status) := by
    intro result status
    rcases s.report_cases result status with ⟨c, -, heq⟩ | ⟨status', heq⟩ <;>
      · rw [heq]
        exact ⟨rfl, rfl⟩
  cases k with
  | up | down | tab => exact h.elim
  | left | right => exact hreport _ _
  | enter | backspace | other => exact ⟨rfl, rfl⟩
  | char c =>
    rw [press]
    split
    · exact ⟨rfl, rfl⟩
    · split
      · rcases s.stepBy_cases (c.toNat - '0'.toNat) with ⟨c', status, -, heq⟩ | heq <;>
          · rw [heq]
            exact ⟨rfl, rfl⟩
      · exact walksTo_refl s

/-- A drawing pins the row where it has kept the line, and a second one of the size leaves it there. -/
theorem keptRow_settle (s : State) (d : Division) : (s.settle d).keptRow d = s.keptRow d := by
  rw [keptRow, pinnedRow_settle_eq]
  exact Nat.min_eq_left (Nat.min_le_right _ _)

theorem walksTo_settle (h : s.pinnedRow = some (s.keptRow d)) : s.WalksTo (s.settle d) :=
  ⟨s.focus_settle d, by rw [pinnedRow_settle_eq, h]⟩

theorem WalksTo.keptRow_eq (h : s.WalksTo s') (d : Division) : s'.keptRow d = s.keptRow d := by
  rw [keptRow, keptRow, h.pinnedRow]

theorem walksTo_after {events : List Event} (hevents : ∀ e ∈ events, e.Walks width height)
    (h : s.pinnedRow = some (s.keptRow (layout width height))) :
    s.WalksTo (s.after layout events) := by
  induction events generalizing s with
  | nil => exact walksTo_refl s
  | cons e events ih =>
    have hfirst : s.WalksTo (s.handle layout e) := by
      cases e with
      | key k => exact walksTo_press (hevents _ List.mem_cons_self)
      | draw w h' =>
        obtain ⟨rfl, rfl⟩ := hevents _ List.mem_cons_self
        exact walksTo_settle h
    refine hfirst.trans (ih (fun e' he' => hevents e' (List.mem_cons_of_mem _ he')) ?_)
    rw [hfirst.pinnedRow, h, hfirst.keptRow_eq]

/-! ### Two sessions that meet -/

theorem title_handle (layout : Layout) (s : State) (e : Event) : (s.handle layout e).title = s.title := by
  cases e with
  | key k => exact (s.listing_press k).2.1
  | draw width height => exact s.title_settle _

theorem title_after (layout : Layout) (s : State) (events : List Event) :
    (s.after layout events).title = s.title := by
  induction events generalizing s with
  | nil => rfl
  | cons e events ih => exact (ih _).trans (title_handle layout s e)

theorem Shows.currentLine_eq {t : Trace} (h : s.Shows t source) (h' : s'.Shows t source)
    (hposition : s.cursor.position = s'.cursor.position) : s'.currentLine = s.currentLine := by
  simp only [currentLine, Cursor.current?, h.trace, h'.trace, hposition]

/-- At a step with a line a drawing puts the window where the position and the row demand. -/
theorem Shows.sourceOffset_settle (h : s.Shows ((Program.ofLines source).trace b) source)
    (hposition : s.cursor.position ≠ 0) (d : Division) :
    (s.settle d).sourceOffset =
      firstFor d source.length (s.keptRow d) (s.currentLine - 1) := by
  rcases h.currentLine_cases with ⟨hzero, -⟩ | ⟨-, l, hl, hlt⟩
  · exact absurd hzero hposition
  · rw [sourceOffset_settle_line hl (h.source ▸ hlt), h.source, hl]
    rfl

/-- The same lines are drawn from the same place, whatever has the focus. -/
theorem Shows.lines_settle (h : s.Shows ((Program.ofLines source).trace b) source)
    (h' : s'.Shows ((Program.ofLines source).trace b) source)
    (hposition : s.cursor.position = s'.cursor.position) (hne : s.cursor.position ≠ 0)
    (hrow : s'.keptRow d = s.keptRow d) :
    ((s'.settle d).frame d).source.lines = ((s.settle d).frame d).source.lines := by
  have hline : s'.currentLine = s.currentLine := h.currentLine_eq h' hposition
  apply lines_sourcePane_congr
  · rw [source_settle, source_settle, h.source, h'.source]
  · rw [currentLine_settle, currentLine_settle, hline]
  · rw [h.sourceOffset_settle hne, h'.sourceOffset_settle (hposition ▸ hne), hrow, hline]

/-- The title and the focus make up the rest of the source pane. -/
theorem source_settle_congr (htitle : s'.title = s.title) (hfocus : s'.focus = s.focus)
    (hlines : ((s'.settle d).frame d).source.lines = ((s.settle d).frame d).source.lines) :
    ((s'.settle d).frame d).source = ((s.settle d).frame d).source := by
  have hbox : ((s'.settle d).frame d).source.box = ((s.settle d).frame d).source.box := by
    simp only [frame, sourcePane, title_settle, focus_settle, htitle, hfocus]
  exact Listing.ext hbox rfl hlines

/-- A walk leaves the row where a drawing of the size has pinned it. -/
theorem walksTo_walk {walk : List Event} (hwalk : ∀ e ∈ walk, e.Walks width height) (s : State) :
    (s.settle (layout width height)).WalksTo ((s.settle (layout width height)).after layout walk) := by
  refine walksTo_after hwalk ?_
  rw [pinnedRow_settle_eq, keptRow_settle]

/-- From a drawing on, a walk that leads back to a step with a line leads back to its source pane. -/
theorem Shows.source_walk (h : s.Shows ((Program.ofLines source).trace b) source)
    {walk : List Event} (hwalk : ∀ e ∈ walk, e.Walks width height) (hne : s.cursor.position ≠ 0)
    (hback : ((s.settle (layout width height)).after layout walk).cursor.position =
      s.cursor.position) :
    let d := layout width height
    ((((s.settle d).after layout walk).settle d).frame d).source = ((s.settle d).frame d).source := by
  intro d
  have hwalked : (s.settle d).WalksTo ((s.settle d).after layout walk) := walksTo_walk hwalk s
  have hshows : ((s.settle d).after layout walk).Shows ((Program.ofLines source).trace b) source :=
    (h.settle d).after layout walk
  refine source_settle_congr ?_ ?_ (h.lines_settle hshows hback.symm hne ?_)
  · rw [title_after, title_settle]
  · rw [hwalked.focus, focus_settle]
  · rw [hwalked.keptRow_eq, keptRow_settle]

end Program

/-- **At every step with a line the source window depends on the position and the pinned row alone.**
Take a program beside its own lines, and two sessions that end at one position with the same pinned
row.  If the position is not the first one, the next drawings of a size show the same lines, from where
the line of the step and the row demand, and with the same focus they show the same source pane.  At
the first position, which has no line, each shows the lines from where the last drawing of its session
at another position has put the window, or from the first line if there is no such drawing.  So a walk
through the trace from a drawing on, which leads back to its position, restores the source pane, unless
that position is the first one. -/
theorem window_of_position (source : List String) (b : Budget) (title : String) (layout : Layout)
    (events events' : List Event) (width height : Nat) :
    let start := ofTrace ((Program.ofLines source).trace b) source title
    let s := start.after layout events
    let s' := start.after layout events'
    let d := layout width height
    let drawn := s.draw layout width height
    let drawn' := s'.draw layout width height
    s.cursor.position = s'.cursor.position → s.pinnedRow = s'.pinnedRow →
      (s.cursor.position ≠ 0 →
        (∃ first, ShowsLines drawn source d first ∧ ShowsLines drawn' source d first ∧
          first = firstFor d source.length (s.keptRow d) (s.currentLine - 1)) ∧
        drawn'.2.source.lines = drawn.2.source.lines ∧
        (s'.focus = s.focus → drawn'.2.source = drawn.2.source)) ∧
      (s.cursor.position = 0 →
        ShowsLines drawn source d (((start.placements layout events).getLast?).getD 0) ∧
        ShowsLines drawn' source d (((start.placements layout events').getLast?).getD 0)) ∧
      ∀ walk, (∀ e ∈ walk, e.Walks width height) →
        let back := (drawn.1.after layout walk).draw layout width height
        back.1.cursor.position = s.cursor.position → s.cursor.position ≠ 0 →
          back.2.source = drawn.2.source := by
  intro start s s' d drawn drawn' hposition hrow
  have hstart : start.Shows ((Program.ofLines source).trace b) source := shows_ofTrace _ b source title
  have hs : s.Shows ((Program.ofLines source).trace b) source := hstart.after layout events
  have hs' : s'.Shows ((Program.ofLines source).trace b) source := hstart.after layout events'
  have hkept : s'.keptRow d = s.keptRow d := by rw [keptRow, keptRow, hrow]
  have htitle : s'.title = s.title := by
    rw [title_after layout start events', title_after layout start events]
  refine ⟨fun hne => ?_, fun hzero => ⟨?_, ?_⟩, ?_⟩
  · have hlines := hs.lines_settle hs' hposition hne hkept
    refine ⟨⟨_, ?_, ?_, rfl⟩, hlines, fun hfocus => source_settle_congr htitle hfocus hlines⟩
    · exact showsLines_draw hs.source (hs.sourceOffset_settle hne d)
    · rw [← hkept, ← hs.currentLine_eq hs' hposition]
      exact showsLines_draw hs'.source (hs'.sourceOffset_settle (hposition ▸ hne) d)
  · refine showsLines_draw hs.source ?_
    rw [sourceOffset_settle_start (hs.currentLine_eq_zero hzero)]
    exact hstart.sourceOffset_after layout events
  · refine showsLines_draw hs'.source ?_
    rw [sourceOffset_settle_start (hs'.currentLine_eq_zero (hposition ▸ hzero))]
    exact hstart.sourceOffset_after layout events'
  · intro walk hwalk back hback hne
    have hwalked : ((s.settle d).after layout walk).cursor.position = s.cursor.position := by
      rw [← cursor_settle _ d]
      exact hback
    exact hs.source_walk hwalk hne hwalked

/-- A listing of eight lines that print. -/
def eightPrints : List String := List.replicate 8 "PRINT \"x\""

/-- The viewer behind a session on this listing. -/
def onEightPrints (events : List Event) : State :=
  (ofTrace ((Program.ofLines eightPrints).trace .standard) eightPrints "").after Division.ofScreen events

/-- A session that goes to the end and one step back. -/
def backFromEnd : List Event := [.draw 80 11, .key .enter, .draw 80 11, .key .left]

/-- A session that goes seven steps on. -/
def sevenOn : List Event := [.draw 80 11, .key (.char '7')]

/-- The two sessions meet, and show the same lines. -/
theorem window_of_position_eightPrints :
    let d := Division.ofScreen 80 11
    let s := onEightPrints backFromEnd
    let s' := onEightPrints sevenOn
    s.cursor.position = s'.cursor.position ∧ s.pinnedRow = s'.pinnedRow ∧ s.cursor.position ≠ 0 ∧
      ∃ first, ShowsLines (s.draw Division.ofScreen 80 11) eightPrints d first ∧
        ShowsLines (s'.draw Division.ofScreen 80 11) eightPrints d first := by
  have hposition : (onEightPrints backFromEnd).cursor.position =
      (onEightPrints sevenOn).cursor.position := by decide +kernel
  have hrow : (onEightPrints backFromEnd).pinnedRow = (onEightPrints sevenOn).pinnedRow := by
    decide +kernel
  have hne : (onEightPrints backFromEnd).cursor.position ≠ 0 := by decide +kernel
  refine ⟨hposition, hrow, hne, ?_⟩
  simp only [onEightPrints] at hposition hrow hne ⊢
  obtain ⟨⟨first, hshows, hshows', -⟩, -⟩ := (window_of_position eightPrints .standard ""
    Division.ofScreen backFromEnd sevenOn 80 11 hposition hrow).1 hne
  exact ⟨first, hshows, hshows'⟩

/-- To the end and back to the first step, with a drawing at the end: the window stays where that
drawing has put it, three lines further than it was at the first step, and the pane is given other
lines. -/
theorem window_carried_to_start :
    let s := onEightPrints [.draw 80 11]
    let s' := onEightPrints [.draw 80 11, .key .enter, .draw 80 11, .key .backspace]
    let drawn := s.draw Division.ofScreen 80 11
    let drawn' := s'.draw Division.ofScreen 80 11
    s.cursor.position = s'.cursor.position ∧ s.pinnedRow = s'.pinnedRow ∧
      drawn.1.sourceOffset = 0 ∧ drawn'.1.sourceOffset = 3 ∧
      drawn'.2.source.lines ≠ drawn.2.source.lines :=
  ⟨by decide +kernel, by decide +kernel, by decide +kernel, by decide +kernel, by decide +kernel⟩

end State
end DeskCheck.Viewer
