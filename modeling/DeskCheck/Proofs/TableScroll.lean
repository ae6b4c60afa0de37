import DeskCheck.Proofs.CurrentStep

/-!
# Scrolling the table

With the table in focus a key scrolls it by one row.  The count that the keys change is how many rows
the table is scrolled back from the newest one, and a drawing stops it at the first row.  The window
stops earlier, where it begins with the first row: there as many rows as the pane has are still in
view, and the count may go on.  What it goes on by is the surplus (`State.tableSurplus`).

So the window is where the count says, less the surplus (`State.tableOffset_eq`).  Scrolling up moves
it by a row for each press until it begins with the first row.  Scrolling down first takes the surplus
back, one press after the other during which the window stays, and then moves the window by a row for
each press (`press_scrolls_table`).
-/

namespace DeskCheck.Viewer.State

variable {s : State} {layout : Layout} {width height : Nat}

/-! ### The window and the count -/

/-- By how many rows the table is scrolled back further than its first row. -/
def tableSurplus (s : State) (height : Nat) : Nat :=
  s.tableBack - (s.revealed.length - (height - 3))

/-- A drawing shows the rows of the table from `first` on: the window begins there, and the pane reads
as these rows, as many as there is room for. -/
structure ShowsFrom (drawn : State × Frame) (rows : List Row) (d : Division) (first : Nat) : Prop where
  offset : drawn.1.tableOffset d.height = first
  reads : drawn.2.table.Shows rows first (d.height - 3)

/-- A count within the rows places the window back from the last full one. -/
theorem tableOffset_eq (hback : s.tableBack ≤ s.selectedRow) (hroom : 3 < height) :
    s.tableOffset height = s.revealed.length - (height - 3) - s.tableBack := by
  have hselected : s.selectedRow = s.revealed.length - 1 := rfl
  rw [tableOffset, followOffset, rowsInView_of_lt hroom]
  split <;> omega

theorem tableSurplus_eq_zero (hback : s.tableBack ≤ s.selectedRow) (hroom : 3 < height)
    (hfirst : 0 < s.tableOffset height) : s.tableSurplus height = 0 := by
  rw [tableOffset_eq hback hroom] at hfirst
  rw [tableSurplus]
  omega

/-! ### A press and a drawing -/

/-- The table has the focus, and the count is as a drawing leaves it. -/
structure Scrolls (s : State) : Prop where
  focus : s.focus = .table
  back : s.tableBack ≤ s.selectedRow

/-- `s'` shows the same rows of the same table as `s`, scrolled back by `back`. -/
structure ScrolledTo (s s' : State) (back : Nat) : Prop where
  scrolls : s'.Scrolls
  revealed : s'.revealed = s.revealed
  tableBack : s'.tableBack = back

/-- A drawing after a key that has changed the count alone stops the count at the first row. -/
theorem Scrolls.settle (h : s.Scrolls) (d : Division) (back : Nat) :
    s.ScrolledTo ({ s with tableBack := back }.settle d) (min back s.selectedRow) := by
  rw [settle_eq]
  exact ⟨⟨h.focus, Nat.min_le_right _ _⟩, rfl, rfl⟩

theorem Scrolls.up (h : s.Scrolls) (hlimit : s.selectedRow ≤ scrollLimit) (d : Division) :
    s.ScrolledTo ((s.press .up).settle d) (min (s.tableBack + 1) s.selectedRow) := by
  have hpress : s.press .up = { s with tableBack := scrollUp s.tableBack } := by
    simp only [press, State.up, h.focus]
  have hcount : min (scrollUp s.tableBack) s.selectedRow = min (s.tableBack + 1) s.selectedRow := by
    rw [scrollUp]
    omega
  rw [hpress, ← hcount]
  exact h.settle d _

theorem Scrolls.down (h : s.Scrolls) (d : Division) :
    s.ScrolledTo ((s.press .down).settle d) (s.tableBack - 1) := by
  have hpress : s.press .down = { s with tableBack := s.tableBack - 1 } := by
    simp only [press, State.down, h.focus]
  have hcount : min (s.tableBack - 1) s.selectedRow = s.tableBack - 1 :=
    Nat.min_eq_left (Nat.le_trans (Nat.sub_le _ _) h.back)
  have hdrawn := h.settle d (s.tableBack - 1)
  rwa [hcount, ← hpress] at hdrawn

/-- The last of a number of drawings, each behind a press of the key that scrolls down. -/
def downs (layout : Layout) (width height : Nat) (drawn : State × Frame) : Nat → State × Frame
  | 0 => drawn
  | n + 1 => ((downs layout width height drawn n).1.press .down).draw layout width height

theorem Scrolls.downs {drawn : State × Frame} (h : drawn.1.Scrolls) (layout : Layout)
    (width height n : Nat) :
    drawn.1.ScrolledTo (downs layout width height drawn n).1 (drawn.1.tableBack - n) := by
  induction n with
  | zero => exact ⟨h, rfl, rfl⟩
  | succ n ih =>
    have hpress := ih.scrolls.down (layout width height)
    have hcount : drawn.1.tableBack - (n + 1) = drawn.1.tableBack - n - 1 := by omega
    rw [hcount, ← ih.tableBack]
    exact ⟨hpress.scrolls, hpress.revealed.trans ih.revealed, hpress.tableBack⟩

/-! ### The window behind the keys -/

variable {s' : State} {back : Nat}

theorem ScrolledTo.tableOffset_eq (h : s.ScrolledTo s' back) (hroom : 3 < height) :
    s'.tableOffset height = s.revealed.length - (height - 3) - back := by
  rw [State.tableOffset_eq h.scrolls.back hroom, h.revealed, h.tableBack]

theorem ScrolledTo.tableSurplus_eq (h : s.ScrolledTo s' back) :
    s'.tableSurplus height = back - (s.revealed.length - (height - 3)) := by
  rw [tableSurplus, h.revealed, h.tableBack]

/-- What a drawing shows of the rows, in terms of the count that it leaves. -/
theorem ScrolledTo.showsFrom {d : Division} {first : Nat} (h : s.ScrolledTo s' back)
    (hroom : 3 < d.height) (hfirst : s.revealed.length - (d.height - 3) - back = first) :
    ShowsFrom (s', s'.frame d) s.revealed d first := by
  have hoffset : s'.tableOffset d.height = first := (h.tableOffset_eq hroom).trans hfirst
  refine ⟨hoffset, ?_⟩
  rw [← hoffset, ← h.revealed, ← rowsInView_of_lt hroom]
  exact shows_tablePane _ _

/-- A drawing leaves the table ready to be scrolled. -/
theorem scrolls_settle {t : Trace} {source : List String} (h : s.Shows t source) (d : Division)
    (hfocus : (s.settle d).focus = .table) : (s.settle d).Scrolls := by
  refine ⟨hfocus, ?_⟩
  rw [(h.settle d).selectedRow]
  exact h.tableBack_settle d

/-- Each of these drawings shows the frame of the state that it leaves. -/
theorem downs_eq (layout : Layout) (width height : Nat) (s : State) (n : Nat) :
    let drawn := downs layout width height (s.draw layout width height) n
    drawn = (drawn.1, drawn.1.frame (layout width height)) := by
  cases n <;> rfl

/-- **What a press of a key that scrolls does to the table.**  In any session, behind a drawing with
room for a row of the table: if the window does not begin with the first row, a press of the key that
scrolls up moves it up by a row, and leaves no surplus.  If the newest row is not in view, a press of
the key that scrolls down moves it down by a row exactly if there is no surplus, and with any number
of presses it gets as many rows further as there are presses beyond the surplus, up to the newest row.
The surplus is smaller than the number of rows in the pane, and there is none unless the window begins
with the first row.  A limit of steps is a word. -/
theorem press_scrolls_table (p : Program) (b : Budget) (source : List String) (title : String)
    (layout : Layout) (events : List Event) (width height : Nat) (hsteps : b.steps ≤ scrollLimit) :
    let drawn := ((ofTrace (p.trace b) source title).after layout events).draw layout width height
    let s := drawn.1
    let d := layout width height
    let rows := d.height - 3
    let first := s.tableOffset d.height
    let surplus := s.tableSurplus d.height
    s.focus = .table → 3 < d.height →
      ShowsFrom drawn s.revealed d first ∧
      (0 < first →
        let drawn' := (s.press .up).draw layout width height
        ShowsFrom drawn' s.revealed d (first - 1) ∧ drawn'.1.tableSurplus d.height = 0) ∧
      (first + rows < s.revealed.length →
        let drawn' := (s.press .down).draw layout width height
        (surplus = 0 → ShowsFrom drawn' s.revealed d (first + 1)) ∧
          (0 < surplus → ShowsFrom drawn' s.revealed d first)) ∧
      (∀ n, ShowsFrom (downs layout width height drawn n) s.revealed d
        (min (s.revealed.length - rows) (first + (n - surplus)))) ∧
      surplus < rows ∧ (0 < first → surplus = 0) := by
  have hbefore := (shows_ofTrace p b source title).after layout events
  -- all that matters of the session is what is shown behind it
  generalize (ofTrace (p.trace b) source title).after layout events = before at hbefore ⊢
  intro drawn s d rows first surplus hfocus hroom
  have hshows : s.Shows (p.trace b) source := hbefore.settle d
  have hscrolls : s.Scrolls := scrolls_settle hbefore d hfocus
  have hback := hscrolls.back
  have hselected : s.selectedRow = s.revealed.length - 1 := rfl
  have hlimit : s.selectedRow ≤ scrollLimit := by
    have hposition := Nat.lt_of_lt_of_le hshows.position (p.size_trace_le b)
    rw [hshows.selectedRow]
    omega
  -- the window as it is, in terms of the count
  have hfirst : first = s.revealed.length - rows - s.tableBack := tableOffset_eq hback hroom
  have hsurplus : surplus = s.tableBack - (s.revealed.length - rows) := rfl
  have hup := hscrolls.up hlimit d
  have hdown := hscrolls.down d
  have hdowns := hscrolls.downs layout width height
  refine ⟨(hdowns 0).showsFrom hroom hfirst.symm,
    fun hlater => ⟨hup.showsFrom hroom ?_, ?_⟩,
    fun hhidden => ⟨fun hnone => hdown.showsFrom hroom ?_, fun hsome => hdown.showsFrom hroom ?_⟩,
    fun n => ?_, by omega, tableSurplus_eq_zero hback hroom⟩
  · show s.revealed.length - rows - min (s.tableBack + 1) s.selectedRow = first - 1
    omega
  · show ((s.press .up).settle d).tableSurplus d.height = 0
    rw [hup.tableSurplus_eq]
    omega
  · show s.revealed.length - rows - (s.tableBack - 1) = first + 1
    omega
  · show s.revealed.length - rows - (s.tableBack - 1) = first
    omega
  · rw [downs_eq]
    refine (hdowns n).showsFrom hroom ?_
    show s.revealed.length - rows - (s.tableBack - n) =
      min (s.revealed.length - rows) (first + (n - surplus))
    omega

/-- Eight lines that print, and so nine rows. -/
def eightLines : Program := ⟨[], List.replicate 8 (.print (.text "x"))⟩

/-- A session that goes to the end of the trace and scrolls the table up three times. -/
def upThrice : List Event := [.key .enter, .key .tab, .key .up, .key .up, .key .up]

/-- The drawing behind this session, with room for seven rows. -/
def scrolledUp : State × Frame :=
  ((ofTrace (eightLines.trace .standard) [] "").after Division.ofScreen upThrice).draw
    Division.ofScreen 80 11

/-- Nine rows in a pane with room for seven, scrolled back by three: a surplus of one, so that of
three presses of the key that scrolls down the last two move the window. -/
theorem press_scrolls_table_eightLines :
    let d := Division.ofScreen 80 11
    Budget.standard.steps ≤ scrollLimit ∧ scrolledUp.1.focus = .table ∧ 3 < d.height ∧
      scrolledUp.1.tableSurplus d.height = 1 ∧
      ShowsFrom (downs Division.ofScreen 80 11 scrolledUp 3) scrolledUp.1.revealed d 2 := by
  have hsteps : Budget.standard.steps ≤ scrollLimit := by decide
  have hfocus : scrolledUp.1.focus = .table := by decide +kernel
  have hwindow : scrolledUp.1.tableSurplus (Division.ofScreen 80 11).height = 1 ∧
      min (scrolledUp.1.revealed.length - ((Division.ofScreen 80 11).height - 3))
        (scrolledUp.1.tableOffset (Division.ofScreen 80 11).height +
          (3 - scrolledUp.1.tableSurplus (Division.ofScreen 80 11).height)) = 2 := by decide +kernel
  obtain ⟨-, -, -, hdowns, -, -⟩ := press_scrolls_table eightLines .standard [] ""
    Division.ofScreen upThrice 80 11 hsteps hfocus (by decide)
  refine ⟨hsteps, hfocus, by decide, hwindow.1, ?_⟩
  have hthird := hdowns 3
  have hwindow := hwindow.2
  rw [scrolledUp] at hwindow ⊢
  rw [hwindow] at hthird
  exact hthird

/-- The first of these presses does nothing, although the newest two rows are not in view: both times
the table is given the first seven rows. -/
theorem press_down_without_effect :
    let d := Division.ofScreen 80 11
    let drawn := (scrolledUp.1.press .down).draw Division.ofScreen 80 11
    scrolledUp.1.focus = .table ∧ 3 < d.height ∧
      scrolledUp.1.tableOffset d.height = 0 ∧ 0 + (d.height - 3) < scrolledUp.1.revealed.length ∧
      drawn.1.tableOffset d.height = 0 ∧
      drawn.2.table.rows.map GridRow.cells = scrolledUp.2.table.rows.map GridRow.cells :=
  ⟨by decide +kernel, by decide, by decide +kernel, by decide +kernel, by decide +kernel,
    by decide +kernel⟩

end DeskCheck.Viewer.State
