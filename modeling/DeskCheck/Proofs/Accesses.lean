import DeskCheck.Proofs.Notation
import DeskCheck.Proofs.Succession

/-!
# What the accesses of a snapshot tell

The accesses of a snapshot are what its line did to elements of sequences, told by the snapshot
before.  A read is of an element that is there, with the value that it has
(`Access.ReadsFrom`); a write puts its value at its place in the sequence that was there and leaves
everything else as it was (`Access.Writes`).

An evaluation makes reads only (`readsFrom_eval`).  So a line either makes reads, and then changes
at most the name which it binds, or it is an assignment to an element, whose one write comes behind
its reads (`Line.accessed_of_replay`).  Nothing else can change a variable, so that no change of a
sequence in place goes unseen (`accesses_truthful`).
-/

namespace DeskCheck

namespace Access

/-- The access is the read of an element that the store holds. -/
def ReadsFrom (a : Access) (store : Store) : Prop :=
  a.kind = .read ∧ ∃ items, store.get? a.name = some (.sequence items) ∧
    items[a.position]? = some a.value

/-- The access is the write by which one store becomes the other: it replaces an element of a
sequence, or adds one behind the last. -/
structure Writes (a : Access) (before after : Store) : Prop where
  kind : a.kind = .write
  element : ∃ old new, before.get? a.name = some (.sequence old) ∧
    after.get? a.name = some (.sequence new) ∧ new[a.position]? = some a.value ∧
    (∀ j, j ≠ a.position → new[j]? = old[j]?) ∧
    (a.position < old.length ∧ new.length = old.length ∨
      a.position = old.length ∧ new.length = old.length + 1)
  others : ∀ n, n ≠ a.name → after.get? n = before.get? n

end Access

/-! ### Reads of an evaluation -/

namespace Evaluated

variable {α β : Type} {store : Store}

/-- All accesses of an evaluation are reads from the store. -/
def ReadsFrom (r : Evaluated α) (store : Store) : Prop := ∀ a ∈ r.reads, a.ReadsFrom store

theorem readsFrom_pure (value : α) : (pure value).ReadsFrom store := List.forall_mem_nil _

theorem ReadsFrom.andThen {r : Evaluated α} {rest : α → Evaluated β} (h : r.ReadsFrom store)
    (hrest : ∀ v, (rest v).ReadsFrom store) : (r.andThen rest).ReadsFrom store :=
  List.forall_mem_append.mpr ⟨h, hrest r.value⟩

end Evaluated

namespace Expr

open Evaluated

variable {store : Store}

theorem readsFrom_readAt (name : String) (index : Value) :
    (readAt store name index).ReadsFrom store := by
  unfold readAt
  split
  · next v position hv hposition =>
    simp only [Store.getAt?, Option.bind_eq_bind, Option.bind_eq_some_iff] at hv
    obtain ⟨held, hheld, items, hitems, i, hi, hvalue⟩ := hv
    obtain rfl : i = position := Option.some.inj (hi.symm.trans hposition)
    cases held with
    | sequence elements =>
      obtain rfl := Option.some.inj hitems
      exact List.forall_mem_singleton.mpr ⟨rfl, _, hheld, hvalue⟩
    | _ => cases hitems
  · exact readsFrom_pure _

theorem readsFrom_evalAll {items : List Expr} (h : ∀ e ∈ items, (eval store e).ReadsFrom store) :
    (evalAll store items).ReadsFrom store := by
  induction items with
  | nil => exact readsFrom_pure _
  | cons e rest ih =>
    obtain ⟨he, hrest⟩ := List.forall_mem_cons.mp h
    rw [evalAll]
    exact he.andThen fun v => (ih hrest).andThen fun vs => readsFrom_pure _

/-- Whatever an expression reads is there to be read. -/
theorem readsFrom_eval (store : Store) (e : Expr) : (eval store e).ReadsFrom store := by
  induction e with
  | number n => exact readsFrom_pure _
  | text s => exact readsFrom_pure _
  | boolean b => exact readsFrom_pure _
  | name s => exact readsFrom_pure _
  | index s inner ih =>
    rw [eval]
    exact ih.andThen (readsFrom_readAt s)
  | sequence items ih =>
    rw [eval]
    exact (readsFrom_evalAll ih).andThen fun vs => readsFrom_pure _
  | binary op left right hleft hright =>
    have hboth : ∀ f : Value → Value → Value, ((eval store left).andThen fun v =>
        (eval store right).andThen fun w => .pure (f v w)).ReadsFrom store := fun f =>
      hleft.andThen fun v => hright.andThen fun w => readsFrom_pure _
    cases op with
    | and =>
      rw [eval]
      refine hleft.andThen fun v => ?_
      split
      · exact hright.andThen fun w => readsFrom_pure _
      · exact readsFrom_pure _
    | or =>
      rw [eval]
      refine hleft.andThen fun v => ?_
      split
      · exact readsFrom_pure _
      · exact hright.andThen fun w => readsFrom_pure _
    | _ => exact hboth _
  | unary op operand ih =>
    rw [eval]
    exact ih.andThen fun v => readsFrom_pure _

end Expr

/-! ### Accesses of a line -/

/-- What the line did from `s` to `s'`, as the accesses of `s'` tell it. -/
inductive Line.Accessed (line : Line) (s s' : Snapshot) : Prop
  /-- Reads only; at most a name was bound. -/
  | reads : (∀ a ∈ s'.accesses, a.ReadsFrom s.store) →
      (∀ n, (∀ value, line ≠ .assign (.name n) value) → s'.store.get? n = s.store.get? n) →
      Accessed line s s'
  /-- One write, behind the reads. -/
  | write {reads : List Access} {a : Access} {index value : Expr} :
      line = .assign (.element a.name index) value → s'.accesses = reads ++ [a] →
      (∀ r ∈ reads, r.ReadsFrom s.store) → a.Writes s.store s'.store → Accessed line s s'

/-- A write that is not refused is an access. -/
theorem Store.writes_of_assignAt? {store written : Store} {n : String} {index v : Value}
    {position : Nat} (h : store.assignAt? n index v = some written)
    (hposition : index.toPosition? = some position) :
    Access.Writes ⟨n, position, v, .write⟩ store written := by
  obtain ⟨old, i, new, hheld, hi, hset, rfl⟩ := exists_of_assignAt? h
  obtain rfl : i = position := Option.some.inj (hi.symm.trans hposition)
  refine ⟨rfl, ⟨old, new, hheld, ?_, getElem?_setOrAppend? hset⟩, fun m hm => ?_⟩
  · rw [get?_assign, if_pos rfl]
  · rw [get?_assign, if_neg hm]

theorem Guard.readsFrom_reads (store : Store) (guard : Option Expr) :
    ∀ a ∈ Guard.reads store guard, a.ReadsFrom store := by
  cases guard with
  | none => exact List.forall_mem_nil _
  | some e => exact e.readsFrom_eval store

theorem Line.accessed_of_replay {l : Nat} {s s' : Snapshot} {line : Line}
    (h : line.replay l s = some s') : line.Accessed s s' := by
  cases line with
  | blank | endWhile | endIf | unrecognized => cases h
  | whileDo guard | ifThen guard | elseIf guard =>
    cases h
    exact .reads (Guard.readsFrom_reads s.store guard) fun _ _ => rfl
  | otherwise => cases h; exact .reads (List.forall_mem_nil _) fun _ _ => rfl
  | print e => cases h; exact .reads (e.readsFrom_eval s.store) fun _ _ => rfl
  | assign target value =>
    have hvalue := value.readsFrom_eval s.store
    cases target with
    | name n =>
      cases h
      refine .reads hvalue fun m hm => ?_
      have hne : m ≠ n := by
        rintro rfl
        exact hm value rfl
      simp [Target.write, Store.get?_assign, hne]
    | element n index =>
      cases h
      have hreads := List.forall_mem_append.mpr ⟨index.readsFrom_eval s.store, hvalue⟩
      rcases Target.write_element s.store n index value with
        ⟨-, hwrite⟩ | ⟨written, position, ha, hposition, hwrite⟩
      · rw [hwrite]
        exact .reads hreads fun _ _ => rfl
      · rw [hwrite]
        exact .write rfl rfl hreads (Store.writes_of_assignAt? ha hposition)

namespace Line.Accessed

variable {line : Line} {s s' : Snapshot}

theorem readsFrom (h : line.Accessed s s') {a : Access} (ha : a ∈ s'.accesses)
    (hkind : a.kind = .read) : a.ReadsFrom s.store := by
  cases h with
  | reads hreads _ => exact hreads a ha
  | write _ haccesses hreads hwrites =>
    rw [haccesses] at ha
    rcases List.mem_append.mp ha with ha | ha
    · exact hreads a ha
    · obtain rfl := List.mem_singleton.mp ha
      rw [hwrites.kind] at hkind
      cases hkind

/-- Among reads there is no write. -/
theorem filter_write_eq_nil {reads : List Access} {store : Store}
    (h : ∀ a ∈ reads, a.ReadsFrom store) : reads.filter (·.kind = .write) = [] := by
  rw [List.filter_eq_nil_iff]
  intro a ha
  simp [(h a ha).1]

/-- A line makes no write, or one, which is its last access. -/
theorem writes (h : line.Accessed s s') :
    (s'.accesses.filter (·.kind = .write) = [] ∧
      ∀ n, (∀ value, line ≠ .assign (.name n) value) → s'.store.get? n = s.store.get? n) ∨
    ∃ a index value, s'.accesses.filter (·.kind = .write) = [a] ∧
      s'.accesses.getLast? = some a ∧ line = .assign (.element a.name index) value ∧
        a.Writes s.store s'.store := by
  cases h with
  | reads hreads hkept => exact .inl ⟨filter_write_eq_nil hreads, hkept⟩
  | @write _ a index value hassign haccesses hreads hwrites =>
    refine .inr ⟨a, index, value, ?_, ?_, hassign, hwrites⟩
    · rw [haccesses, List.filter_append, filter_write_eq_nil hreads]
      simp [hwrites.kind]
    · rw [haccesses, List.getLast?_concat]

end Line.Accessed

/-! ### Accesses in a trace -/

namespace Program

/-- **The accesses of a snapshot are true, and no change goes unseen.**  Each read is of an element
of a sequence in the snapshot before.  There is at most one write; it is the last access, the line
is an assignment to an element of its sequence, and it is all that the line changed.  And a variable
that changed, although the line is no plain assignment to it, was changed by the write. -/
theorem accesses_truthful (p : Program) (b : Budget) {i : Nat} {s s' : Snapshot}
    (hs : (p.trace b).get? i = some s) (hs' : (p.trace b).get? (i + 1) = some s') :
    (∀ a ∈ s'.accesses, a.kind = .read → a.ReadsFrom s.store) ∧
    (s'.accesses.filter (·.kind = .write)).length ≤ 1 ∧
    (∀ a ∈ s'.accesses, a.kind = .write →
      s'.accesses.getLast? = some a ∧ a.Writes s.store s'.store ∧
        ∃ l index value, s'.line = some l ∧
          p.line? l = some (.assign (.element a.name index) value)) ∧
    ∀ n, s'.store.get? n ≠ s.store.get? n →
      (∀ l value, s'.line = some l → p.line? l ≠ some (.assign (.name n) value)) →
        ∃ a, s'.accesses.filter (·.kind = .write) = [a] ∧ a.name = n ∧
          a.Writes s.store s'.store := by
  obtain ⟨l, line, hline, hreplay, -, -⟩ := next_of_get? hs hs'
  have hl : s'.line = some l := Line.replay_line hreplay
  have haccessed := Line.accessed_of_replay hreplay
  have hmem : ∀ a ∈ s'.accesses, a.kind = .write → a ∈ s'.accesses.filter (·.kind = .write) :=
    fun a ha hkind => List.mem_filter.mpr ⟨ha, decide_eq_true hkind⟩
  refine ⟨fun a ha hkind => haccessed.readsFrom ha hkind, ?_⟩
  rcases haccessed.writes with ⟨hnone, hkept⟩ | ⟨w, index, value, hone, hlast, hassign, hwrites⟩
  · rw [hnone] at hmem ⊢
    refine ⟨Nat.zero_le _, fun a ha hkind => absurd (hmem a ha hkind) List.not_mem_nil, ?_⟩
    intro n hchanged hplain
    refine absurd (hkept n fun value heq => ?_) hchanged
    exact hplain l value hl (heq ▸ hline)
  · rw [hone] at hmem ⊢
    refine ⟨Nat.le_refl _, fun a ha hkind => ?_, fun n hchanged _ => ?_⟩
    · obtain rfl := List.mem_singleton.mp (hmem a ha hkind)
      exact ⟨hlast, hwrites, l, index, value, hl, hassign ▸ hline⟩
    · refine ⟨w, rfl, ?_, hwrites⟩
      by_contra hne
      exact hchanged (hwrites.others n (Ne.symm hne))

/-- An element is read, and its text with one more letter is written back; the index is a truth
value. -/
def lengthened : Program where
  source := []
  lines := [.assign (.name "xs") (.sequence [.text "a"]),
    .assign (.element "xs" (.boolean false))
      (.binary .add (.index "xs" (.boolean false)) (.text "b"))]

theorem accesses_truthful_lengthened :
    ∃ s s', (lengthened.trace ⟨9, 5000⟩).get? 1 = some s ∧
      (lengthened.trace ⟨9, 5000⟩).get? 2 = some s' ∧
      s'.accesses.map Access.toText = ["xs[0] -> a", "xs[0] <- ab"] ∧
      ∃ a, s'.accesses.filter (·.kind = .write) = [a] ∧ a.name = "xs" ∧
        a.Writes s.store s'.store := by
  have hbefore : ((lengthened.trace ⟨9, 5000⟩).get? 1).map
      (fun s => (s.store.get? "xs").map Value.toText) = some (some "[\"a\"]") := by
    decide +kernel
  have hafter : ((lengthened.trace ⟨9, 5000⟩).get? 2).map
      (fun s => (s.line, s.accesses.map Access.toText, (s.store.get? "xs").map Value.toText)) =
        some (some 1, ["xs[0] -> a", "xs[0] <- ab"], some "[\"ab\"]") := by
    decide +kernel
  obtain ⟨s, hs, hheld⟩ := Option.map_eq_some_iff.mp hbefore
  obtain ⟨s', hs', hshown⟩ := Option.map_eq_some_iff.mp hafter
  simp only [Prod.mk.injEq] at hshown
  obtain ⟨hline, haccesses, hheld'⟩ := hshown
  refine ⟨s, s', hs, hs', haccesses,
    (accesses_truthful lengthened ⟨9, 5000⟩ hs hs').2.2.2 "xs" ?_ ?_⟩
  · intro heq
    rw [heq, hheld] at hheld'
    exact absurd hheld' (by decide)
  · intro l value hl
    obtain rfl : 1 = l := Option.some.inj (hline.symm.trans hl)
    nofun

end Program
end DeskCheck
