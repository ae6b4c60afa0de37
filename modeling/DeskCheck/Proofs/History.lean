import DeskCheck.Proofs.Elements
import DeskCheck.Proofs.Growth
import Mathlib.Data.Finmap

/-!
# A store and its history

A store changes by assignments to names and by writes to elements.  Main result (`after_history`):
whatever the calls were and in whatever order, the store behind them is a map in the order of
insertion.  Its names are the assigned ones in the order of their first assignment, none twice; a
name is bound exactly if it is listed; going through the names and looking each of them up yields
the bindings, each once; and the value of a name is the one last assigned to it, with the writes
carried out since then made to it in order (`carriedOut`).

The same store may be kept as two parts, a table of values without an order and a list of names
(`Tabled`).  Then the two parts have to agree: a name missing in the table would be passed over
without a word.  They do, behind every history, and the two ways of keeping a store cannot be told
apart (`Tabled.Keeps.after`).
-/

namespace DeskCheck

/-- The value with one element replaced or added; `none` if it is no sequence or the index is out of
reach. -/
def Value.withElement? (held index v : Value) : Option Value := do
  let items ← held.items?
  let i ← index.toPosition?
  return .sequence (← Store.setOrAppend? items i v)

/-- The value with elements replaced or added one after the other; `none` if one of the writes cannot
be made. -/
def Value.withElements? (held : Value) (writes : List (Value × Value)) : Option Value :=
  writes.foldlM (fun held (index, v) => held.withElement? index v) held

namespace Store

/-! ### Calls -/

/-- A call that may change a store. -/
inductive Change where
  | assign (name : String) (v : Value)
  | write (name : String) (index v : Value)

/-- The store after a call. -/
def change (s : Store) : Change → Store
  | .assign name v => s.assign name v
  | .write name index v => (s.write name index v).2

/-- The store after some calls. -/
def after (s : Store) (history : List Change) : Store := history.foldl change s

/-- The name that a call assigns. -/
def Change.assigned? : Change → Option String
  | .assign name _ => some name
  | .write .. => none

/-- The names that some calls assign, in the order of the calls. -/
def assigned (history : List Change) : List String := history.filterMap Change.assigned?

variable {s : Store} {name n : String} {index v held : Value} {c : Change}
  {history since : List Change}

theorem after_append (s : Store) (a b : List Change) : s.after (a ++ b) = (s.after a).after b :=
  List.foldl_append

theorem assignAt?_eq (s : Store) (name : String) (index v : Value) :
    s.assignAt? name index v = ((s.get? name).bind (·.withElement? index v)).map (s.assign name) := by
  rcases hheld : s.get? name with - | held
  · simp [assignAt?, hheld]
  · rcases hitems : held.items? with - | items
    · simp [assignAt?, Value.withElement?, hheld, hitems]
    · rcases hi : index.toPosition? with - | i
      · simp [assignAt?, Value.withElement?, hheld, hi]
      · simp [assignAt?, Value.withElement?, hheld, hitems, hi, Option.map_eq_bind,
          Option.bind_assoc]

/-- A write that is carried out assigns the name what it held with the element in it. -/
theorem write_eq (s : Store) (name : String) (index v : Value) :
    s.write name index v =
      match (s.get? name).bind (·.withElement? index v) with
      | some new => (true, s.assign name new)
      | none => (false, s) := by
  rw [write, assignAt?_eq]
  rcases (s.get? name).bind (·.withElement? index v) with - | new <;> rfl

theorem write_cases (s : Store) (name : String) (index v : Value) :
    s.write name index v = (false, s) ∨
      ∃ held new, s.get? name = some held ∧ held.withElement? index v = some new ∧
        s.write name index v = (true, s.assign name new) := by
  rw [write_eq]
  rcases hnew : (s.get? name).bind (·.withElement? index v) with - | new
  · exact .inl rfl
  · obtain ⟨held, hheld, hwith⟩ := Option.bind_eq_some_iff.mp hnew
    exact .inr ⟨held, new, hheld, hwith, rfl⟩

/-! ### Names -/

theorem names_change (s : Store) (c : Change) :
    (s.change c).names = s.names ++ (c.assigned?.toList.removeAll s.names) := by
  cases c with
  | assign name v =>
    rw [change, names_assign]
    by_cases hbound : name ∈ s.names <;> simp [Change.assigned?, List.removeAll, hbound]
  | write name index v =>
    have hnone : (Change.write name index v).assigned?.toList.removeAll s.names = [] := rfl
    rw [change, hnone, List.append_nil]
    rcases write_cases s name index v with hwrite | ⟨held, new, hheld, -, hwrite⟩
    · rw [hwrite]
    · rw [hwrite, names_assign, if_pos (mem_names_iff.mpr ⟨_, hheld⟩)]

theorem assigned_append (a b : List Change) : assigned (a ++ b) = assigned a ++ assigned b :=
  List.filterMap_append

/-- The names are the assigned ones, each where it was first assigned. -/
theorem names_after (history : List Change) :
    (empty.after history).names = (assigned history).eraseDups := by
  -- on the last call, for whether a name is new is told by the calls in front of it
  induction history using List.reverseRecOn with
  | nil => rfl
  | append_singleton history c ih =>
    have hlast : assigned [c] = c.assigned?.toList := by cases c <;> rfl
    have hnew : (c.assigned?.toList.removeAll (assigned history).eraseDups) =
        (c.assigned?.toList.removeAll (assigned history)).eraseDups := by
      cases c with
      | assign name v =>
        by_cases hmem : name ∈ assigned history <;>
          simp [Change.assigned?, List.removeAll, hmem, List.eraseDups_cons]
      | write name index v => rfl
    rw [after_append, assigned_append, List.eraseDups_append, hlast, ← hnew, ← ih]
    exact names_change _ c

theorem nodup_change (h : s.names.Nodup) (c : Change) : (s.change c).names.Nodup := by
  rw [names_change]
  refine List.Nodup.append h ?_ ?_
  · cases c with
    | assign name v => exact (List.nodup_singleton name).filter _
    | write name index v => exact List.nodup_nil
  · intro m hm hnew
    simp [List.removeAll, hm] at hnew

theorem nodup_after (h : s.names.Nodup) (history : List Change) :
    (s.after history).names.Nodup := by
  induction history generalizing s with
  | nil => exact h
  | cons c history ih => exact ih (nodup_change h c)

/-- Looking up each name in turn yields the bindings in their order, and none is passed over. -/
theorem filterMap_get?_names (h : s.names.Nodup) :
    (s.names.filterMap fun n => (s.get? n).map fun v => (n, v)) = s.bindings := by
  have hfound : ∀ b ∈ s.bindings, ((s.get? b.1).map fun v => (b.1, v)) = some b := by
    rintro ⟨n, v⟩ hmem
    rw [(mem_bindings_iff h).mp hmem]
    rfl
  rw [names, List.filterMap_map]
  exact (List.filterMap_congr hfound).trans List.filterMap_some

/-! ### Values -/

/-- The write to an element of `n` that a call carries out. -/
def Change.carriedOut? (n : String) (s : Store) : Change → Option (Value × Value)
  | .assign .. => none
  | .write name index v =>
    if name = n ∧ (s.write name index v).1 = true then some (index, v) else none

/-- The writes to elements of `n` that are carried out by some calls, from a store on. -/
def carriedOut (n : String) (s : Store) : List Change → List (Value × Value)
  | [] => []
  | c :: rest => (c.carriedOut? n s).toList ++ carriedOut n (s.change c) rest

/-- A call that does not assign a name makes at most one write to what the name holds. -/
theorem get?_change (h : s.get? n = some held) (hc : c.assigned? ≠ some n) :
    ∃ new, (s.change c).get? n = some new ∧
      held.withElements? (c.carriedOut? n s).toList = some new := by
  cases c with
  | assign name v =>
    have hne : n ≠ name := fun heq => hc (congrArg some heq.symm)
    refine ⟨held, ?_, rfl⟩
    rw [change, get?_assign, if_neg hne]
    exact h
  | write name index v =>
    rcases write_cases s name index v with hwrite | ⟨old, new, hold, hnew, hwrite⟩
    · -- refused: the store is the same, and no write is carried out
      refine ⟨held, ?_, ?_⟩
      · rw [change, hwrite]
        exact h
      · simp [Change.carriedOut?, hwrite, Value.withElements?]
    · rw [change, hwrite]
      by_cases hname : name = n
      · -- the write is to the name itself
        subst hname
        obtain rfl : old = held := Option.some.inj (hold.symm.trans h)
        refine ⟨new, ?_, ?_⟩
        · rw [get?_assign, if_pos rfl]
        · simp [Change.carriedOut?, hwrite, Value.withElements?, hnew]
      · -- the write is to another name
        refine ⟨held, ?_, ?_⟩
        · rw [get?_assign, if_neg (Ne.symm hname)]
          exact h
        · simp [Change.carriedOut?, hname, Value.withElements?]

/-- As long as a name is not assigned again, it holds what it held with the writes carried out since
then made to it. -/
theorem get?_after (h : s.get? n = some held) (hsince : n ∉ assigned since) :
    ∃ new, (s.after since).get? n = some new ∧
      held.withElements? (carriedOut n s since) = some new := by
  induction since generalizing s held with
  | nil => exact ⟨held, h, rfl⟩
  | cons c since ih =>
    have hc : c.assigned? ≠ some n := fun hc => hsince (by simp [assigned, hc])
    have hrest : n ∉ assigned since := fun hmem => hsince (by
      rw [← List.singleton_append, assigned_append]
      exact List.mem_append_right _ hmem)
    -- what the name holds behind the first call is what the rest starts from
    obtain ⟨next, hnext, hwrite⟩ := get?_change h hc
    obtain ⟨new, hnew, hwrites⟩ := ih hnext hrest
    refine ⟨new, hnew, ?_⟩
    rw [Value.withElements?] at hwrite
    rw [carriedOut, Value.withElements?, List.foldlM_append, hwrite]
    exact hwrites

end Store

/-! ### A table and a list of names -/

/-- A store in two parts: the values by name, in no order, and the names in the order of their first
assignment. -/
structure Tabled where
  table : Finmap fun _ : String => Value
  order : List String

namespace Tabled

def empty : Tabled := ⟨∅, []⟩

/-- Binds `name` to `v`; a name that the table does not have is listed behind the others. -/
def assign (t : Tabled) (name : String) (v : Value) : Tabled :=
  match t.table.lookup name with
  | some _ => { t with table := t.table.insert name v }
  | none => ⟨t.table.insert name v, t.order ++ [name]⟩

/-- Whether a write to an element is carried out, and the two parts after it. -/
def write (t : Tabled) (name : String) (index v : Value) : Bool × Tabled :=
  match (t.table.lookup name).bind (·.withElement? index v) with
  | some new => (true, { t with table := t.table.insert name new })
  | none => (false, t)

/-- The names looked up in the table in their order; a name that the table does not have is passed
over. -/
def bindings (t : Tabled) : List (String × Value) :=
  t.order.filterMap fun n => (t.table.lookup n).map fun v => (n, v)

/-- The two parts after a call. -/
def change (t : Tabled) : Store.Change → Tabled
  | .assign name v => t.assign name v
  | .write name index v => (t.write name index v).2

/-- The two parts after some calls. -/
def after (t : Tabled) (history : List Store.Change) : Tabled := history.foldl change t

/-- The two parts agree with a store, and so with each other. -/
structure Keeps (t : Tabled) (s : Store) : Prop where
  order : t.order = s.names
  lookup : ∀ n, t.table.lookup n = s.get? n

variable {t : Tabled} {s : Store}

theorem keeps_empty : empty.Keeps .empty := ⟨rfl, fun _ => Finmap.lookup_empty _⟩

theorem lookup_insert (table : Finmap fun _ : String => Value) (name n : String) (v : Value) :
    (table.insert name v).lookup n = if n = name then some v else table.lookup n := by
  split
  · next heq => rw [heq, Finmap.lookup_insert]
  · next hne => exact Finmap.lookup_insert_of_ne table hne

theorem Keeps.assign (h : t.Keeps s) (name : String) (v : Value) :
    (t.assign name v).Keeps (s.assign name v) := by
  have hlookup : ∀ n, (t.table.insert name v).lookup n = (s.assign name v).get? n := fun n => by
    rw [lookup_insert, Store.get?_assign, h.lookup]
  rw [Tabled.assign, h.lookup]
  rcases hheld : s.get? name with - | held
  · refine ⟨?_, hlookup⟩
    rw [Store.names_assign, if_neg (Store.get?_eq_none_iff.mp hheld), ← h.order]
  · refine ⟨?_, hlookup⟩
    rw [Store.names_assign, if_pos (Store.mem_names_iff.mpr ⟨held, hheld⟩)]
    exact h.order

theorem Keeps.write (h : t.Keeps s) (name : String) (index v : Value) :
    (t.write name index v).1 = (s.write name index v).1 ∧
      (t.write name index v).2.Keeps (s.write name index v).2 := by
  rw [Tabled.write, Store.write_eq, h.lookup]
  rcases hnew : (s.get? name).bind (·.withElement? index v) with - | new
  · exact ⟨rfl, h⟩
  · obtain ⟨held, hheld, -⟩ := Option.bind_eq_some_iff.mp hnew
    refine ⟨rfl, ?_, fun n => ?_⟩
    · -- a name with an element written is listed already
      rw [Store.names_assign, if_pos (Store.mem_names_iff.mpr ⟨held, hheld⟩)]
      exact h.order
    · rw [lookup_insert, Store.get?_assign, h.lookup]

theorem Keeps.change (h : t.Keeps s) (c : Store.Change) : (t.change c).Keeps (s.change c) := by
  cases c with
  | assign name v => exact h.assign name v
  | write name index v => exact (h.write name index v).2

theorem Keeps.after (h : t.Keeps s) (history : List Store.Change) :
    (t.after history).Keeps (s.after history) := by
  induction history generalizing t s with
  | nil => exact h
  | cons c history ih => exact ih (h.change c)

theorem Keeps.bindings (h : t.Keeps s) (hs : s.names.Nodup) : t.bindings = s.bindings := by
  rw [Tabled.bindings, h.order]
  simp only [h.lookup]
  exact Store.filterMap_get?_names hs

/-- The table has as many entries as names are listed. -/
theorem Keeps.card (h : t.Keeps s) (hs : s.names.Nodup) :
    t.table.keys.card = s.names.length := by
  have hkeys : t.table.keys = s.names.toFinset := by
    ext n
    rw [Finmap.mem_keys, Finmap.mem_iff, List.mem_toFinset, Store.mem_names_iff]
    simp only [h.lookup]
  rw [hkeys, List.toFinset_card_of_nodup hs]

end Tabled

/-! ### Every history -/

namespace Store

/-- **A store is a map in the order of insertion**, whatever the calls behind it were.  Its names are
the assigned ones in the order of their first assignment, and none is listed twice; a name is bound
exactly if it is listed; the names, each looked up, are the bindings; and a name holds what it was
last assigned, with the writes carried out since then made to it in their order.  Kept as a table and
a list of names, a store has the same names in the same order, the same values and the same
bindings, and the table is as large as the list. -/
theorem after_history (history : List Change) :
    let s := empty.after history
    let t := Tabled.empty.after history
    s.names = (assigned history).eraseDups ∧ s.names.Nodup ∧
    (∀ n, n ∈ s.names ↔ ∃ v, s.get? n = some v) ∧
    (s.names.filterMap fun n => (s.get? n).map fun v => (n, v)) = s.bindings ∧
    s.bindings.length = s.names.length ∧
    (∀ n before v since, history = before ++ .assign n v :: since → n ∉ assigned since →
      ∃ held, s.get? n = some held ∧
        v.withElements? (carriedOut n (empty.after (before ++ [.assign n v])) since) = some held) ∧
    t.order = s.names ∧ (∀ n, t.table.lookup n = s.get? n) ∧ t.bindings = s.bindings ∧
    t.table.keys.card = t.order.length := by
  have hnodup : (empty.after history).names.Nodup := nodup_after (s := empty) List.nodup_nil history
  have hkeeps := Tabled.keeps_empty.after history
  refine ⟨names_after history, hnodup, fun n => mem_names_iff, filterMap_get?_names hnodup,
    List.length_map _ |>.symm, ?_, hkeeps.order, hkeeps.lookup, hkeeps.bindings hnodup, ?_⟩
  · rintro n before v since rfl hsince
    have hassigned : (empty.after (before ++ [.assign n v])).get? n = some v := by
      rw [after_append]
      show ((empty.after before).assign n v).get? n = some v
      rw [get?_assign, if_pos rfl]
    rw [List.append_cons, after_append]
    exact get?_after hassigned hsince
  · rw [hkeeps.card hnodup, hkeeps.order]

/-- A name that changes its kind, and a sequence with two writes carried out and two refused. -/
def mixed : List Change :=
  [.assign "n" .missing, .assign "xs" (.sequence [.text "a"]), .write "xs" .missing (.text "b"),
    .write "n" .missing (.text "c"), .write "xs" (.text "7") (.text "d"),
    .assign "n" (.boolean true), .write "xs" (.boolean true) (.text "e")]

theorem after_history_mixed :
    mixed = [.assign "n" .missing] ++ .assign "xs" (.sequence [.text "a"]) :: mixed.drop 2 ∧
    "xs" ∉ assigned (mixed.drop 2) ∧ (empty.after mixed).names = ["n", "xs"] ∧
    ((empty.after mixed).get? "xs").map Value.toText = some "[\"b\", \"e\"]" := by
  obtain ⟨hnames, -, -, -, -, hvalues, -⟩ := after_history mixed
  obtain ⟨held, hheld, hwrites⟩ := hvalues "xs" [.assign "n" .missing] _ (mixed.drop 2) rfl
    (by decide)
  refine ⟨rfl, by decide, hnames, ?_⟩
  rw [hheld, ← hwrites]
  decide +kernel

end Store

/-! ### The stores of a trace -/

/-- An assignment is one call. -/
theorem Target.exists_change (target : Target) (store : Store) (value : Expr) :
    ∃ c, (target.write store value).1 = store.change c := by
  cases target with
  | name n => exact ⟨.assign n (value.eval store).value, rfl⟩
  | element n index =>
    exact ⟨.write n (index.eval store).value (value.eval store).value,
      store_write_element store n index value⟩

theorem Line.exists_history_of_replay {l : Nat} {s s' : Snapshot} {line : Line}
    (h : line.replay l s = some s') : ∃ history, s'.store = s.store.after history := by
  cases line with
  | blank | endWhile | endIf | unrecognized => cases h
  | whileDo guard | ifThen guard | elseIf guard => cases h; exact ⟨[], rfl⟩
  | otherwise | print e => cases h; exact ⟨[], rfl⟩
  | assign target value =>
    cases h
    obtain ⟨c, hc⟩ := target.exists_change s.store value
    exact ⟨[c], hc⟩

/-- Every store that a trace shows has a history, so it is a map in the order of insertion. -/
theorem Program.exists_history {p : Program} {b : Budget} {i : Nat} {s : Snapshot}
    (hs : (p.trace b).get? i = some s) : ∃ history, s.store = Store.empty.after history := by
  induction i generalizing s with
  | zero =>
    obtain rfl : s = .initial := Option.some.inj (hs.symm.trans (get?_zero p b))
    exact ⟨[], rfl⟩
  | succ i ih =>
    obtain ⟨t, ht⟩ := Trace.exists_get?_of_le (Nat.le_succ i) hs
    obtain ⟨history, hhistory⟩ := ih ht
    obtain ⟨l, line, -, hreplay, -, -⟩ := next_of_get? ht hs
    obtain ⟨more, hmore⟩ := Line.exists_history_of_replay hreplay
    exact ⟨history ++ more, by rw [hmore, hhistory, Store.after_append]⟩

end DeskCheck
