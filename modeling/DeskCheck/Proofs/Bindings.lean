import DeskCheck.Store

/-!
# What a store binds

A store is kept as a list of bindings and seen through its lookup and its list of names.  A name is
listed exactly if the lookup finds it (`mem_names_iff`), and if no name is listed twice, the
bindings are exactly what the lookup finds (`mem_bindings_iff`).

A write to an element is an assignment of the sequence with that one element replaced or added
(`exists_of_assignAt?`, `getElem?_setOrAppend?`), so it binds no new name (`names_assignAt?`).
-/

namespace DeskCheck.Store

variable {s written : Store} {n : String} {v : Value}

/-! ### Names, bindings and the lookup -/

theorem lookup?_eq_none_iff {bs : List (String × Value)} :
    lookup? n bs = none ↔ n ∉ bs.map Prod.fst := by
  induction bs with
  | nil => simp [lookup?]
  | cons b rest ih =>
    obtain ⟨bound, old⟩ := b
    by_cases hb : bound = n
    · simp [lookup?, hb]
    · simp [lookup?, hb, Ne.symm hb, ih]

theorem get?_eq_none_iff : s.get? n = none ↔ n ∉ s.names := lookup?_eq_none_iff

theorem mem_names_iff : n ∈ s.names ↔ ∃ v, s.get? n = some v := by
  rw [← Option.ne_none_iff_exists', ne_eq, get?_eq_none_iff, Decidable.not_not]

/-- A name that is bound once has the value that it is bound to. -/
theorem lookup?_eq_some_iff {bs : List (String × Value)} (h : (bs.map Prod.fst).Nodup) :
    lookup? n bs = some v ↔ (n, v) ∈ bs := by
  induction bs with
  | nil => simp [lookup?]
  | cons b rest ih =>
    obtain ⟨bound, old⟩ := b
    obtain ⟨hfresh, hrest⟩ := List.nodup_cons.mp h
    by_cases hb : bound = n
    · -- the first binding is the only one of its name
      subst hb
      have hlater : (bound, v) ∉ rest := by
        intro hmem
        exact hfresh (List.mem_map.mpr ⟨(bound, v), hmem, rfl⟩)
      simp [lookup?, hlater, eq_comm]
    · simp [lookup?, hb, Ne.symm hb, ih hrest]

theorem mem_bindings_iff (h : s.names.Nodup) : (n, v) ∈ s.bindings ↔ s.get? n = some v :=
  (lookup?_eq_some_iff h).symm

/-! ### Writes to an element -/

/-- The sequence after a write has the value at the place written, the other elements where they
were, and at most one element more. -/
theorem getElem?_setOrAppend? {old new : List Value} {i : Nat}
    (h : setOrAppend? old i v = some new) :
    new[i]? = some v ∧ (∀ j, j ≠ i → new[j]? = old[j]?) ∧
      (i < old.length ∧ new.length = old.length ∨
        i = old.length ∧ new.length = old.length + 1) := by
  unfold setOrAppend? at h
  split at h
  · next hlt =>
    obtain rfl := Option.some.inj h
    refine ⟨List.getElem?_set_self hlt, fun j hj => ?_, .inl ⟨hlt, List.length_set⟩⟩
    exact List.getElem?_set_ne (Ne.symm hj)
  · split at h
    · next hend =>
      obtain rfl := Option.some.inj h
      subst hend
      refine ⟨List.getElem?_concat_length, fun j hj => ?_, .inr ⟨rfl, by simp⟩⟩
      rcases Nat.lt_or_gt_of_ne hj with hlt | hgt
      · exact List.getElem?_append_left hlt
      · rw [List.getElem?_eq_none (by simp; omega), List.getElem?_eq_none (by omega)]
    · cases h

/-- A write that is not refused assigns the changed sequence. -/
theorem exists_of_assignAt? {index : Value} (h : s.assignAt? n index v = some written) :
    ∃ old i new, s.get? n = some (.sequence old) ∧ index.toPosition? = some i ∧
      setOrAppend? old i v = some new ∧ written = s.assign n (.sequence new) := by
  simp only [assignAt?, Option.bind_eq_bind, Option.bind_eq_some_iff] at h
  obtain ⟨held, hheld, old, hold, i, hi, new, hnew, hwritten⟩ := h
  cases held with
  | sequence items =>
    obtain rfl := Option.some.inj hold
    exact ⟨items, i, new, hheld, hi, hnew, (Option.some.inj hwritten).symm⟩
  | _ => cases hold

theorem names_assignAt? {index : Value} (h : s.assignAt? n index v = some written) :
    written.names = s.names := by
  obtain ⟨old, i, new, hheld, -, -, rfl⟩ := exists_of_assignAt? h
  rw [names_assign, if_pos (mem_names_iff.mpr ⟨_, hheld⟩)]

end DeskCheck.Store
