import DeskCheck.Proofs.Succession
import Mathlib.Order.Nat

/-!
# What a run only adds to

Names and printed texts are never taken back.  From a snapshot of a trace to the next one the names
stay as they are or get one new name behind the others, and the output stays or gets longer
(`Snapshot.Next.grows`).  So the names of every later snapshot begin with those of every earlier one
(`names_isPrefix`), in every trace of every program.

A change of kind is no exception: a name that is bound again, to a sequence or to a scalar, stays
where it was first listed.
-/

namespace DeskCheck

/-! ### One step -/

/-- `s'` has the names of `s`, perhaps with one new name behind them, and the output of `s`, perhaps
with more behind it. -/
structure Snapshot.Grows (s s' : Snapshot) : Prop where
  names : s'.store.names = s.store.names ∨
    ∃ n, n ∉ s.store.names ∧ s'.store.names = s.store.names ++ [n]
  output : s.output <+: s'.output

theorem Snapshot.Grows.names_isPrefix {s s' : Snapshot} (h : s.Grows s') :
    s.store.names <+: s'.store.names := by
  rcases h.names with heq | ⟨n, -, heq⟩
  · exact heq ▸ List.prefix_rfl
  · exact heq ▸ List.prefix_append _ _

/-- An assignment lists at most one new name: the one that it binds, if this is not bound yet. -/
theorem Target.names_write (target : Target) (store : Store) (value : Expr) :
    (target.write store value).1.names = store.names ∨
      ∃ n, n ∉ store.names ∧ (target.write store value).1.names = store.names ++ [n] := by
  cases target with
  | name n =>
    have hnames := Store.names_assign store n (value.eval store).value
    by_cases hbound : n ∈ store.names
    · rw [if_pos hbound] at hnames
      exact .inl hnames
    · rw [if_neg hbound] at hnames
      exact .inr ⟨n, hbound, hnames⟩
  | element n index =>
    left
    rcases write_element store n index value with ⟨-, hwrite⟩ | ⟨written, _, ha, -, hwrite⟩
    · rw [hwrite]
    · rw [hwrite]
      exact Store.names_assignAt? ha

theorem Line.grows_of_replay {l : Nat} {s s' : Snapshot} {line : Line}
    (h : line.replay l s = some s') : s.Grows s' := by
  cases line with
  | blank | endWhile | endIf | unrecognized => cases h
  | whileDo guard | ifThen guard | elseIf guard => cases h; exact ⟨.inl rfl, List.prefix_rfl⟩
  | otherwise => cases h; exact ⟨.inl rfl, List.prefix_rfl⟩
  | print e => cases h; exact ⟨.inl rfl, List.prefix_append _ _⟩
  | assign target value => cases h; exact ⟨target.names_write s.store value, List.prefix_rfl⟩

theorem Snapshot.Next.grows {lines : List Line} {s s' : Snapshot} (h : s.Next lines s') :
    s.Grows s' := by
  obtain ⟨l, line, -, hreplay, -, -⟩ := h
  exact Line.grows_of_replay hreplay

/-! ### Whole traces -/

/-- There is a snapshot at every place in front of one that there is. -/
theorem Trace.exists_get?_of_le {t : Trace} {i j : Nat} {s' : Snapshot} (hij : i ≤ j)
    (hj : t.get? j = some s') : ∃ s, t.get? i = some s := by
  obtain ⟨hlt, -⟩ := Array.getElem?_eq_some_iff.mp hj
  exact ⟨_, Array.getElem?_eq_getElem (Nat.lt_of_le_of_lt hij hlt)⟩

namespace Program

variable {p : Program} {b : Budget} {i j : Nat} {s s' : Snapshot}

theorem get?_zero (p : Program) (b : Budget) : (p.trace b).get? 0 = some .initial := by
  obtain ⟨c, -, hs, -, -⟩ := exists_snapshots_eq p b
  rw [← Trace.getElem?_snapshots, hs]
  rfl

/-- The names of a later snapshot begin with those of an earlier one. -/
theorem names_isPrefix (hij : i ≤ j) (hi : (p.trace b).get? i = some s)
    (hj : (p.trace b).get? j = some s') : s.store.names <+: s'.store.names := by
  induction j, hij using Nat.le_induction generalizing s' with
  | base =>
    obtain rfl : s = s' := Option.some.inj (hi.symm.trans hj)
    exact List.prefix_rfl
  | succ j hij ih =>
    obtain ⟨t, ht⟩ := Trace.exists_get?_of_le (Nat.le_succ j) hj
    exact (ih ht).trans (next_of_get? ht hj).grows.names_isPrefix

end Program
end DeskCheck
