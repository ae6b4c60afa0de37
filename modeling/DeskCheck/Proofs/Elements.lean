import DeskCheck.Proofs.Succession

/-!
# Writes to an element

A write to an element either is refused and changes nothing, or is carried out and changes one
place of one sequence.  `Store.write` puts the two together: whether the write is carried out, and
the store after it, which is what an assignment to an element leaves (`Machine.store_assign_element`).

The index may be any value: reads and writes see it as a position, and two indices that stand for
one position are one index.  Main result (`write_atomic`): a write is carried out exactly if there is
a sequence and the position is in it or just behind it; a refused write leaves the whole store as it
is; and behind one that is carried out the new value is read at every index of the position, what
was read before at every other index, and nothing else has changed.
-/

namespace DeskCheck

variable {s : Store} {name : String} {index v : Value} {old : List Value} {i : Nat}

namespace Store

/-- An element can be written up to the place just behind the last. -/
theorem isSome_setOrAppend? : (setOrAppend? old i v).isSome ↔ i ≤ old.length := by
  rw [setOrAppend?]
  split
  · exact iff_of_true rfl (by omega)
  · split
    · exact iff_of_true rfl (by omega)
    · exact iff_of_false nofun (by omega)

/-! ### Reads and writes of a name that holds a sequence -/

theorem getAt?_of_sequence (h : s.get? name = some (.sequence old)) (index : Value) :
    s.getAt? name index = index.toPosition?.bind (old[·]?) := by
  simp [getAt?, h, Value.items?]

theorem assignAt?_of_sequence (h : s.get? name = some (.sequence old))
    (hi : index.toPosition? = some i) (v : Value) :
    s.assignAt? name index v =
      (setOrAppend? old i v).map fun new => s.assign name (.sequence new) := by
  rcases hset : setOrAppend? old i v with - | new <;> simp [assignAt?, h, hi, Value.items?, hset]

/-- A write is carried out exactly if the position is in the sequence or just behind it. -/
theorem isSome_assignAt?_iff :
    (s.assignAt? name index v).isSome ↔ ∃ old i, s.get? name = some (.sequence old) ∧
      index.toPosition? = some i ∧ i ≤ old.length := by
  constructor
  · intro h
    obtain ⟨written, hwritten⟩ := Option.isSome_iff_exists.mp h
    obtain ⟨old, i, new, hheld, hi, hset, -⟩ := exists_of_assignAt? hwritten
    have hreach : (setOrAppend? old i v).isSome := by
      rw [hset]
      rfl
    exact ⟨old, i, hheld, hi, isSome_setOrAppend?.mp hreach⟩
  · rintro ⟨old, i, hheld, hi, hle⟩
    rw [assignAt?_of_sequence hheld hi, Option.isSome_map]
    exact isSome_setOrAppend?.mpr hle

/-! ### Whole writes -/

/-- Whether a write to an element is carried out, and the store after it. -/
def write (s : Store) (name : String) (index v : Value) : Bool × Store :=
  match s.assignAt? name index v with
  | some written => (true, written)
  | none => (false, s)

theorem write_of_assignAt? {written : Store} (h : s.assignAt? name index v = some written) :
    s.write name index v = (true, written) := by
  rw [write, h]

theorem write_refused (h : s.assignAt? name index v = none) : s.write name index v = (false, s) := by
  rw [write, h]

theorem write_eq_true_iff :
    (s.write name index v).1 = true ↔ (s.assignAt? name index v).isSome := by
  rcases h : s.assignAt? name index v with - | written
  · rw [write_refused h]
    rfl
  · rw [write_of_assignAt? h]
    rfl

end Store

/-- An assignment to an element is a write to it; the index is evaluated over the same store. -/
theorem Target.store_write_element (store : Store) (name : String) (index value : Expr) :
    ((Target.element name index).write store value).1 =
      (store.write name (index.eval store).value (value.eval store).value).2 := by
  rcases write_element store name index value with ⟨h, hwrite⟩ | ⟨written, _, h, -, hwrite⟩
  · rw [hwrite, Store.write_refused h]
  · rw [hwrite, Store.write_of_assignAt? h]

theorem Machine.store_assign_element (m : Machine) (name : String) (index value : Expr) :
    (m.assign (.element name index) value).store =
      (m.store.write name (index.eval m.store).value (value.eval m.store).value).2 := by
  rw [assign_eq]
  exact Target.store_write_element m.store name index value

namespace Store

/-- What a write to an element of `name` may change: `written` has the value at every index that
stands for position `i` of the sequence, and is the same at every other index, for every other name
and in the order of names. -/
structure Changed (s : Store) (name : String) (i : Nat) (v : Value) (written : Store) : Prop where
  read_back : ∀ index : Value, index.toPosition? = some i → written.getAt? name index = some v
  other_index : ∀ index : Value, index.toPosition? ≠ some i →
    written.getAt? name index = s.getAt? name index
  other_name : ∀ n, n ≠ name → written.get? n = s.get? n
  names : written.names = s.names

theorem changed_of_setOrAppend? {new : List Value} (hheld : s.get? name = some (.sequence old))
    (hset : setOrAppend? old i v = some new) :
    s.Changed name i v (s.assign name (.sequence new)) := by
  obtain ⟨hself, hother, -⟩ := getElem?_setOrAppend? hset
  have hwritten : (s.assign name (.sequence new)).get? name = some (.sequence new) := by
    rw [get?_assign, if_pos rfl]
  refine ⟨fun index hindex => ?_, fun index hindex => ?_, fun n hn => ?_, ?_⟩
  · rw [getAt?_of_sequence hwritten, hindex]
    exact hself
  · rw [getAt?_of_sequence hwritten, getAt?_of_sequence hheld]
    rcases hposition : index.toPosition? with - | j
    · rfl
    · -- the other index stands for another position
      have hj : j ≠ i := fun hj => hindex (hj ▸ hposition)
      exact hother j hj
  · rw [get?_assign, if_neg hn]
  · rw [names_assign, if_pos (mem_names_iff.mpr ⟨_, hheld⟩)]

/-- **A write to an element is atomic.**  It is carried out exactly if the name holds a sequence and
the index stands for a position in it or just behind it.  If it is refused, the store is the same
store.  If it is carried out, the new value is read back at the position, through whatever index, the
sequence is longer by one exactly if the position was behind it, and nothing else has changed. -/
theorem write_atomic (s : Store) (name : String) (index v : Value) :
    ((s.write name index v).1 = true ↔ ∃ old i, s.get? name = some (.sequence old) ∧
      index.toPosition? = some i ∧ i ≤ old.length) ∧
    ((s.write name index v).1 = false → (s.write name index v).2 = s) ∧
    ((s.write name index v).1 = true → ∃ old i new, s.get? name = some (.sequence old) ∧
      index.toPosition? = some i ∧ s.Changed name i v (s.write name index v).2 ∧
      (s.write name index v).2.get? name = some (.sequence new) ∧
      new.length = if i < old.length then old.length else old.length + 1) := by
  refine ⟨write_eq_true_iff.trans isSome_assignAt?_iff, fun h => ?_, fun h => ?_⟩
  · rcases hwritten : s.assignAt? name index v with - | written
    · rw [write_refused hwritten]
    · rw [write_of_assignAt? hwritten] at h
      cases h
  · obtain ⟨written, hwritten⟩ := Option.isSome_iff_exists.mp (write_eq_true_iff.mp h)
    rw [write_of_assignAt? hwritten]
    obtain ⟨old, i, new, hheld, hi, hset, rfl⟩ := exists_of_assignAt? hwritten
    refine ⟨old, i, new, hheld, hi, changed_of_setOrAppend? hheld hset, ?_, ?_⟩
    · rw [get?_assign, if_pos rfl]
    · obtain ⟨-, -, hlength⟩ := getElem?_setOrAppend? hset
      split <;> omega

/-- One number, in a sequence named `xs`, and a number named `n`. -/
def twoNames : Store := (empty.assign "xs" (.sequence [.number (.ofNat 4)])).assign "n" .missing

/-- An element is added through a text in a sequence, and read back through a truth value; the number
has no elements. -/
theorem write_atomic_twoNames :
    ((twoNames.write "xs" (.sequence [.text " 1.0 "]) (.text "new")).1 = true ∧
      (twoNames.write "xs" (.sequence [.text " 1.0 "]) (.text "new")).2.getAt? "xs"
        (.boolean true) = some (.text "new")) ∧
    (twoNames.write "n" .missing (.text "new")).1 = false ∧
      (twoNames.write "n" .missing (.text "new")).2 = twoNames := by
  have hadded : (twoNames.write "xs" (.sequence [.text " 1.0 "]) (.text "new")).1 = true := by
    decide +kernel
  have hrefused : (twoNames.write "n" .missing (.text "new")).1 = false := by decide +kernel
  obtain ⟨-, -, hcarried⟩ := write_atomic twoNames "xs" (.sequence [.text " 1.0 "]) (.text "new")
  obtain ⟨old, i, -, -, hi, hchanged, -⟩ := hcarried hadded
  have hposition : (Value.sequence [.text " 1.0 "]).toPosition? =
      (Value.boolean true).toPosition? := by decide +kernel
  exact ⟨⟨hadded, hchanged.read_back _ (hposition.symm.trans hi)⟩, hrefused,
    (write_atomic twoNames "n" .missing (.text "new")).2.1 hrefused⟩

end Store
end DeskCheck
