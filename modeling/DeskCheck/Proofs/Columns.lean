import DeskCheck.Proofs.Growth
import DeskCheck.Table

/-!
# Which names have a column

A name has a column exactly if some snapshot of the trace binds it and none binds it to a sequence,
and the columns stand in the order of the first bindings (`columns_eligible`).

The columns are taken from the names of the last snapshot.  That these are the right ones, in the
right order, is a fact about the whole run: a snapshot lists a name exactly if it does not come
before the first binding of the name (`mem_names_iff_firstBinding_le`), and no two names are bound
first by the same snapshot (`names_pairwise`).  Neither depends on why the run ended.
-/

namespace DeskCheck

namespace Trace

/-- Some snapshot binds the name. -/
def Binds (t : Trace) (name : String) : Prop :=
  ∃ i s v, t.get? i = some s ∧ s.store.get? name = some v

/-- Some snapshot binds the name to a sequence. -/
def HoldsSequence (t : Trace) (name : String) : Prop :=
  ∃ i s items, t.get? i = some s ∧ s.store.get? name = some (.sequence items)

/-- The place of the first snapshot that binds the name. -/
def firstBinding (t : Trace) (name : String) : Nat :=
  t.snapshots.toList.findIdx fun s => (s.store.get? name).isSome

theorem HoldsSequence.binds {t : Trace} {name : String} (h : t.HoldsSequence name) :
    t.Binds name := by
  obtain ⟨i, s, items, hs, hheld⟩ := h
  exact ⟨i, s, _, hs, hheld⟩

end Trace

theorem Value.isSequence_iff {v : Value} : v.isSequence = true ↔ ∃ items, v = .sequence items := by
  cases v <;> simp [isSequence]

namespace Program

variable {p : Program} {b : Budget} {i : Nat} {s : Snapshot} {name : String}

/-! ### First bindings -/

/-- A snapshot lists a name exactly from the first binding of the name on. -/
theorem mem_names_iff_firstBinding_le (hs : (p.trace b).get? i = some s) :
    name ∈ s.store.names ↔ (p.trace b).firstBinding name ≤ i := by
  have hplace := hs
  rw [← Trace.getElem?_snapshots] at hplace
  obtain ⟨hi, hsi⟩ := List.getElem?_eq_some_iff.mp hplace
  constructor
  · intro hname
    obtain ⟨v, hv⟩ := Store.mem_names_iff.mp hname
    by_contra hlt
    have hunbound := List.not_of_lt_findIdx (Nat.lt_of_not_le hlt)
    simp [hsi, hv] at hunbound
  · intro hle
    have hbound := List.findIdx_getElem (w := Nat.lt_of_le_of_lt hle hi)
    obtain ⟨v, hv⟩ := Option.isSome_iff_exists.mp hbound
    -- the snapshot of the first binding is not behind this one
    refine (names_isPrefix hle ?_ hs).subset (Store.mem_names_iff.mpr ⟨v, hv⟩)
    rw [← Trace.getElem?_snapshots]
    exact List.getElem?_eq_getElem _

/-- The names of a snapshot stand in the order of their first bindings, and no two of them were
bound first by the same snapshot. -/
theorem names_pairwise (hs : (p.trace b).get? i = some s) :
    s.store.names.Pairwise fun m n =>
      (p.trace b).firstBinding m < (p.trace b).firstBinding n := by
  induction i generalizing s with
  | zero =>
    obtain rfl : s = .initial := Option.some.inj (hs.symm.trans (get?_zero p b))
    exact List.Pairwise.nil
  | succ i ih =>
    obtain ⟨t, ht⟩ := Trace.exists_get?_of_le (Nat.le_succ i) hs
    rcases (next_of_get? ht hs).grows.names with hsame | ⟨n, hfresh, hmore⟩
    · rw [hsame]
      exact ih ht
    · rw [hmore]
      refine List.pairwise_append.mpr ⟨ih ht, List.pairwise_singleton _ _, fun m hm n' hn' => ?_⟩
      obtain rfl := List.mem_singleton.mp hn'
      have hbefore : (p.trace b).firstBinding m ≤ i := (mem_names_iff_firstBinding_le ht).mp hm
      have hafter : ¬ (p.trace b).firstBinding n' ≤ i := by
        rwa [← mem_names_iff_firstBinding_le ht]
      omega

theorem nodup_names (hs : (p.trace b).get? i = some s) : s.store.names.Nodup :=
  (names_pairwise hs).imp fun hlt heq => absurd (heq ▸ hlt) (Nat.lt_irrefl _)

/-! ### Columns and sequences -/

theorem exists_last (p : Program) (b : Budget) :
    ∃ i s, (p.trace b).get? i = some s ∧ (p.trace b).last? = some s ∧
      ∀ j s', (p.trace b).get? j = some s' → j ≤ i := by
  have hlast : (p.trace b).last? = (p.trace b).get? ((p.trace b).size - 1) :=
    Array.back?_eq_getElem?
  obtain ⟨hpos, -⟩ := Array.getElem?_eq_some_iff.mp (get?_zero p b)
  obtain ⟨s, hs⟩ : ∃ s, (p.trace b).get? ((p.trace b).size - 1) = some s :=
    ⟨_, Array.getElem?_eq_getElem (Nat.sub_lt hpos Nat.one_pos)⟩
  refine ⟨_, s, hs, hlast.trans hs, fun j s' hj => ?_⟩
  exact Nat.le_sub_one_of_lt (Array.getElem?_eq_some_iff.mp hj).1

theorem mem_sequenceNames : name ∈ (p.trace b).sequenceNames ↔ (p.trace b).HoldsSequence name := by
  have hmem : ∀ s : Snapshot, s ∈ (p.trace b).snapshots.toList ↔ ∃ i, (p.trace b).get? i = some s :=
    fun s => by simp only [← Trace.getElem?_snapshots, List.mem_iff_getElem?]
  simp only [Trace.sequenceNames, List.mem_eraseDups, List.mem_flatMap, List.mem_map,
    List.mem_filter, Value.isSequence_iff, hmem, Trace.HoldsSequence]
  constructor
  · rintro ⟨s, ⟨i, hs⟩, ⟨n, v⟩, ⟨hbinding, items, rfl⟩, rfl⟩
    exact ⟨i, s, items, hs, (Store.mem_bindings_iff (nodup_names hs)).mp hbinding⟩
  · rintro ⟨i, s, items, hs, hheld⟩
    exact ⟨s, ⟨i, hs⟩, (name, .sequence items),
      ⟨(Store.mem_bindings_iff (nodup_names hs)).mpr hheld, items, rfl⟩, rfl⟩

/-- The columns are names of the last snapshot, which has all names there are. -/
theorem columns_eq (p : Program) (b : Budget) :
    ∃ i s, (p.trace b).get? i = some s ∧ (∀ name, (p.trace b).Binds name ↔ name ∈ s.store.names) ∧
      (p.trace b).columns =
        s.store.names.filter fun name => name ∉ (p.trace b).sequenceNames := by
  obtain ⟨i, s, hs, hlast, hmax⟩ := exists_last p b
  refine ⟨i, s, hs, fun name => ⟨?_, fun hname => ?_⟩, by rw [Trace.columns, hlast]⟩
  · rintro ⟨j, s', v, hj, hv⟩
    exact (names_isPrefix (hmax j s' hj) hj hs).subset (Store.mem_names_iff.mpr ⟨v, hv⟩)
  · obtain ⟨v, hv⟩ := Store.mem_names_iff.mp hname
    exact ⟨i, s, v, hs, hv⟩

theorem mem_columns :
    name ∈ (p.trace b).columns ↔ (p.trace b).Binds name ∧ ¬ (p.trace b).HoldsSequence name := by
  obtain ⟨i, s, -, hbinds, hcolumns⟩ := columns_eq p b
  rw [hcolumns, hbinds, ← mem_sequenceNames]
  simp

/-- **The columns are the names that are bound and never hold a sequence, in the order of their
first bindings.**  Every name that is bound is a column or the name of a sequence, and none is
both. -/
theorem columns_eligible (p : Program) (b : Budget) :
    (∀ name, name ∈ (p.trace b).columns ↔
      (p.trace b).Binds name ∧ ¬ (p.trace b).HoldsSequence name) ∧
    (p.trace b).columns.Nodup ∧
    ((p.trace b).columns.Pairwise fun m n =>
      (p.trace b).firstBinding m < (p.trace b).firstBinding n) ∧
    ∀ name, ((p.trace b).Binds name ↔
        name ∈ (p.trace b).columns ∨ name ∈ (p.trace b).sequenceNames) ∧
      ¬ (name ∈ (p.trace b).columns ∧ name ∈ (p.trace b).sequenceNames) := by
  obtain ⟨i, s, hs, -, hcolumns⟩ := columns_eq p b
  refine ⟨fun name => mem_columns, ?_, ?_, fun name => ?_⟩
  · rw [hcolumns]
    exact (nodup_names hs).filter _
  · rw [hcolumns]
    exact (names_pairwise hs).filter _
  · rw [mem_columns, mem_sequenceNames]
    refine ⟨⟨fun hbound => ?_, ?_⟩, fun hboth => hboth.1.2 hboth.2⟩
    · by_cases hheld : (p.trace b).HoldsSequence name
      · exact .inr hheld
      · exact .inl ⟨hbound, hheld⟩
    · rintro (⟨hbound, -⟩ | hheld)
      · exact hbound
      · exact hheld.binds

/-- A name that turns from a scalar into a sequence has no column. -/
example :
    (Program.trace ⟨[], [.assign (.name "total") (.boolean true),
      .assign (.name "x") (.text "one"), .assign (.name "x") (.sequence []),
      .assign (.name "last") (.variable "x"), .assign (.name "total") (.text "")]⟩
      .standard).columns = ["total"] := by decide +kernel

end Program
end DeskCheck
