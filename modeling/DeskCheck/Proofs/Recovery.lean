import DeskCheck.Proofs.Columns
import DeskCheck.Proofs.Equality

/-!
# A table loses nothing of its trace

A row shows only what its step changed and printed.  Still the table has every text of every
variable in a column and all the output: the text of a variable is that of the last entry of its
column which is marked as changed, and the output is that of the rows one after the other
(`table_recovers`).

An entry that is not marked repeats the text above it, although the values may differ: a
not-a-number equals nothing, the two zeros are equal and both are written `0`
(`text_eq_of_unchanged`).  An entry without a text stands only where no row above has one, because
names are never taken back.
-/

namespace DeskCheck

/-! ### One row -/

namespace Row

/-- A value that is no sequence and counts as unchanged has the text of the value above it. -/
theorem text_eq_of_unchanged {now before : Value} (hscalar : now.isSequence = false)
    (h : unchanged now before = true) : now.toText = before.toText := by
  cases now with
  | number m =>
    cases before with
    | number n =>
      rcases Bool.or_eq_true_iff.mp h with hequals | hnan
      · simpa [Value.toText, Value.toChars, Number.toText] using Number.toText_eq_of_equals hequals
      · cases m <;> cases n <;> first | rfl | cases hnan
    | _ => simp [unchanged, Value.same] at h
  | text a =>
    cases before with
    | text b => rw [eq_of_beq (show (a == b) = true by simpa [unchanged, Value.same] using h)]
    | _ => simp [unchanged, Value.same] at h
  | boolean a =>
    cases before with
    | boolean b => rw [eq_of_beq (show (a == b) = true by simpa [unchanged, Value.same] using h)]
    | _ => simp [unchanged, Value.same] at h
  | sequence items => cases hscalar

/-- The text of an entry is its own if it is marked as changed, and else the text above it. -/
theorem text_of_entry {now before : Option Value}
    (hscalar : ∀ v, now = some v → v.isSequence = false) (hkept : now = none → before = none) :
    (((some (entry before now)).filter Entry.changed).map Entry.text).or
        (before.map fun v => some v.toText) = now.map fun v => some v.toText := by
  cases now with
  | none => simp [entry, hkept rfl]
  | some v =>
    cases before with
    | none => simp [entry]
    | some w =>
      by_cases hsame : unchanged v w = true
      · simp [entry, Option.filter, hsame, text_eq_of_unchanged (hscalar v rfl) hsame]
      · simp [entry, Option.filter, hsame]

/-- What a row prints is what the output has more than that of the row above. -/
theorem output_ofSnapshot {columns : List String} {before : Option Snapshot} {now : Snapshot}
    {step : Nat} (h : ∀ s, before = some s → s.output <+: now.output) :
    (before.elim [] fun s => s.output.map OutputLine.text) ++
        (ofSnapshot columns before now step).output =
      now.output.map OutputLine.text := by
  cases before with
  | none => simp [ofSnapshot]
  | some s =>
    obtain ⟨more, hmore⟩ := h s rfl
    simp [ofSnapshot, ← hmore]

end Row

/-! ### The rows of a table -/

/-- The snapshot in front of a place. -/
def Trace.before? (t : Trace) : Nat → Option Snapshot
  | 0 => none
  | r + 1 => t.get? r

theorem Trace.getElem?_rows (t : Trace) (r : Nat) :
    t.table.rows[r]? = (t.get? r).map fun s => Row.ofSnapshot t.columns (t.before? r) s r := by
  have hplace := t.getElem?_snapshots
  rw [table, List.getElem?_zipWith, List.getElem?_zipIdx, hplace]
  rcases hs : t.get? r with _ | s
  · simp
  · cases r with
    | zero => simp [before?]
    | succ r =>
      obtain ⟨s', hs'⟩ := Trace.exists_get?_of_le (Nat.le_succ r) hs
      simp [before?, hplace, hs']

theorem Trace.length_rows (t : Trace) : t.table.rows.length = t.size := by
  simp [table, size]

namespace Table

/-- The entry of a row and a column. -/
def entry? (t : Table) (r c : Nat) : Option Entry := do (← t.rows[r]?).entries[c]?

/-- The last entry of a column that is marked as changed, in the rows up to `r`. -/
def lastChange? (t : Table) (c : Nat) : Nat → Option Entry
  | 0 => (t.entry? 0 c).filter Entry.changed
  | r + 1 => ((t.entry? (r + 1) c).filter Entry.changed).or (t.lastChange? c r)

end Table

namespace Program

variable {p : Program} {b : Budget} {r c : Nat} {s : Snapshot} {name : String}

theorem grows_of_before? (hs : (p.trace b).get? r = some s) :
    ∀ s', (p.trace b).before? r = some s' → s'.Grows s := by
  intro s' hs'
  cases r with
  | zero => cases hs'
  | succ r => exact (next_of_get? hs' hs).grows

theorem entry?_eq (hs : (p.trace b).get? r = some s)
    (hc : (p.trace b).columns[c]? = some name) :
    (p.trace b).table.entry? r c = some
      (Row.entry (((p.trace b).before? r).bind (·.store.get? name)) (s.store.get? name)) := by
  simp [Table.entry?, Trace.getElem?_rows, hs, Row.ofSnapshot, hc]

/-- The text of a variable with a column, from its entry and the snapshot above. -/
theorem text_of_entry? (hs : (p.trace b).get? r = some s)
    (hc : (p.trace b).columns[c]? = some name) :
    ((((p.trace b).table.entry? r c).filter Entry.changed).map Entry.text).or
        ((((p.trace b).before? r).bind (·.store.get? name)).map fun v => some v.toText) =
      (s.store.get? name).map fun v => some v.toText := by
  rw [entry?_eq hs hc]
  apply Row.text_of_entry
  · -- a name with a column never holds a sequence
    intro v hv
    rw [Bool.eq_false_iff]
    intro hsequence
    obtain ⟨items, rfl⟩ := Value.isSequence_iff.mp hsequence
    exact (mem_columns.mp (List.mem_of_getElem? hc)).2 ⟨r, s, items, hs, hv⟩
  · intro hunbound
    rcases hbefore : (p.trace b).before? r with _ | s'
    · rfl
    · have hnames := (grows_of_before? hs s' hbefore).names_isPrefix.subset
      rw [Store.get?_eq_none_iff] at hunbound
      exact Store.get?_eq_none_iff.mpr fun hname => hunbound (hnames hname)

/-- The last change up to a row has the text of the variable in this row's snapshot. -/
theorem text_lastChange? (hs : (p.trace b).get? r = some s)
    (hc : (p.trace b).columns[c]? = some name) :
    ((p.trace b).table.lastChange? c r).map Entry.text =
      (s.store.get? name).map fun v => some v.toText := by
  induction r generalizing s with
  | zero =>
    have hentry := text_of_entry? hs hc
    simpa [Table.lastChange?, Trace.before?] using hentry
  | succ r ih =>
    obtain ⟨s', hs'⟩ := Trace.exists_get?_of_le (Nat.le_succ r) hs
    have hentry := text_of_entry? hs hc
    rw [Trace.before?, hs', Option.bind_some, ← ih hs', ← Option.map_or] at hentry
    exact hentry

/-- What a row prints comes behind the output of the snapshot above. -/
theorem output_row (hs : (p.trace b).get? r = some s) :
    (((p.trace b).before? r).elim [] fun s' => s'.output.map OutputLine.text) ++
        (p.trace b).table.rows[r]?.toList.flatMap Row.output =
      s.output.map OutputLine.text := by
  rw [Trace.getElem?_rows, hs, Option.map_some, Option.toList_some, List.flatMap_singleton]
  exact Row.output_ofSnapshot fun s' hs' => (grows_of_before? hs s' hs').output

/-- The rows up to one print the output of this row's snapshot. -/
theorem output_rows (hs : (p.trace b).get? r = some s) :
    ((p.trace b).table.rows.take (r + 1)).flatMap Row.output = s.output.map OutputLine.text := by
  induction r generalizing s with
  | zero => simpa [List.take_add_one, Trace.before?] using output_row hs
  | succ r ih =>
    obtain ⟨s', hs'⟩ := Trace.exists_get?_of_le (Nat.le_succ r) hs
    rw [List.take_add_one, List.flatMap_append, ih hs', ← output_row hs]
    simp [Trace.before?, hs']

/-- **A table loses nothing of its trace.**  It has one row for each snapshot, in their order, with
the snapshot's line and accesses and with an entry for each column.  The text that a variable has in
a snapshot is that of the last changed entry of its column in the rows up to the snapshot's; there is
none exactly if the variable is not bound.  And the rows up to the snapshot's print exactly its
output. -/
theorem table_recovers (p : Program) (b : Budget) :
    (p.trace b).table.rows.length = (p.trace b).size ∧
    ∀ r s, (p.trace b).get? r = some s →
      (∃ row, (p.trace b).table.rows[r]? = some row ∧ row.step = r ∧ row.line = s.line ∧
        row.accesses = s.accesses ∧ row.entries.length = (p.trace b).table.columns.length) ∧
      (∀ c name, (p.trace b).table.columns[c]? = some name →
        ((p.trace b).table.lastChange? c r).bind Entry.text =
          (s.store.get? name).map Value.toText ∧
        ((p.trace b).table.lastChange? c r = none ↔ s.store.get? name = none)) ∧
      ((p.trace b).table.rows.take (r + 1)).flatMap Row.output =
        s.output.map OutputLine.text := by
  refine ⟨Trace.length_rows _, fun r s hs => ⟨?_, fun c name hc => ?_, output_rows hs⟩⟩
  · have hrow := Trace.getElem?_rows (p.trace b) r
    rw [hs, Option.map_some] at hrow
    exact ⟨_, hrow, rfl, rfl, rfl, List.length_map _⟩
  · have htext := text_lastChange? hs hc
    cases hv : s.store.get? name with
    | none =>
      have hnone : (p.trace b).table.lastChange? c r = none := by simpa [hv] using htext
      simp [hnone]
    | some v =>
      obtain ⟨e, hchange, htext⟩ :
          ∃ e, (p.trace b).table.lastChange? c r = some e ∧ e.text = some v.toText := by
        simpa [hv] using htext
      simp [hchange, htext]

/-- Zero, its opposite, and twice a quotient that is not a number. -/
def unmarked : Program where
  source := []
  lines :=
    let zero := Expr.number (.zero false)
    [.assign (.name "x") zero, .assign (.name "x") (.unary .neg zero),
      .assign (.name "x") (.binary .div zero zero), .assign (.name "x") (.binary .div zero zero)]

/-- Two of the four assignments are marked as changes, and these two give the text after each. -/
theorem table_recovers_unmarked :
    let table := (unmarked.trace ⟨9, 5000⟩).table
    table.rows.map (·.entries.map Entry.changed) = [[false], [true], [false], [true], [false]] ∧
      (table.lastChange? 0 2).bind Entry.text = some "0" ∧
      (table.lastChange? 0 4).bind Entry.text = some "NaN" := by
  have hcolumn : (unmarked.trace ⟨9, 5000⟩).table.columns[0]? = some "x" := by decide +kernel
  have hafter := fun r s hs => ((table_recovers unmarked ⟨9, 5000⟩).2 r s hs).2.1 0 "x" hcolumn
  refine ⟨by decide +kernel, ?_, ?_⟩
  · have hzero := hafter 2 ⟨some 1, ⟨[("x", .number (.zero true))]⟩, [], []⟩ rfl
    exact hzero.1.trans (by decide +kernel)
  · have hnan := hafter 4 ⟨some 3, ⟨[("x", .number .nan)]⟩, [], []⟩ rfl
    exact hnan.1.trans (by decide +kernel)

end Program
end DeskCheck
