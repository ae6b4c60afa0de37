import DeskCheck.Value

/-!
# The variable store

A store binds names to values and remembers the order in which the names were first assigned.
Assigning a name replaces its value, whatever the kinds.  Assigning at an index changes the
sequence that the name holds; where there is no such sequence or the index is out of reach,
nothing happens.

`get?_assign` and `names_assign` say what an assignment does to the two views of a store, its
lookup and its list of names.
-/

namespace DeskCheck

/-- Bindings in the order of first assignment. -/
structure Store where
  bindings : List (String × Value)
deriving Inhabited

namespace Store

def empty : Store := ⟨[]⟩

/-- The names that are bound, in the order of first assignment. -/
def names (s : Store) : List String := s.bindings.map Prod.fst

/-- The value of a name in a list of bindings. -/
def lookup? (name : String) : List (String × Value) → Option Value
  | [] => none
  | (bound, v) :: rest => if bound = name then some v else lookup? name rest

def get? (s : Store) (name : String) : Option Value := lookup? name s.bindings

/-- A list of bindings with the value of a name replaced, or added at the end. -/
def bind (name : String) (v : Value) : List (String × Value) → List (String × Value)
  | [] => [(name, v)]
  | (bound, old) :: rest =>
    if bound = name then (bound, v) :: rest else (bound, old) :: bind name v rest

/-- Binds `name` to `v`. -/
def assign (s : Store) (name : String) (v : Value) : Store := ⟨bind name v s.bindings⟩

/-- A sequence with the element at `i` replaced, or added if `i` is just behind the last. -/
def setOrAppend? (items : List Value) (i : Nat) (v : Value) : Option (List Value) :=
  if i < items.length then some (items.set i v)
  else if i = items.length then some (items ++ [v])
  else none

/-- The store after a write to an element of the sequence that `name` holds; `none` if there is no
sequence or the index is out of reach. -/
def assignAt? (s : Store) (name : String) (index v : Value) : Option Store := do
  let items ← (← s.get? name).items?
  let i ← index.toPosition?
  let items ← setOrAppend? items i v
  return s.assign name (.sequence items)

/-- The element at an index of the sequence that `name` holds. -/
def getAt? (s : Store) (name : String) (index : Value) : Option Value := do
  let items ← (← s.get? name).items?
  items[(← index.toPosition?)]?

/-- The estimated memory of a list of bindings, in bytes: a name counts twice, in the order of names
and in the lookup. -/
def bindingsBytes : List (String × Value) → Nat
  | [] => 0
  | (name, v) :: rest => 2 * name.utf8ByteSize + v.bytes + bindingsBytes rest

/-- The estimated memory of a store, in bytes. -/
def bytes (s : Store) : Nat := bindingsBytes s.bindings

/-! ### The views after an assignment -/

theorem lookup?_bind (name : String) (v : Value) (bs : List (String × Value)) (n : String) :
    lookup? n (bind name v bs) = if n = name then some v else lookup? n bs := by
  induction bs with
  | nil => simp only [bind, lookup?, eq_comm]
  | cons b rest ih =>
    obtain ⟨bound, old⟩ := b
    by_cases hb : bound = name
    · subst hb
      by_cases hn : n = bound
      · simp [bind, lookup?, hn]
      · simp [bind, lookup?, hn, Ne.symm hn]
    · by_cases hn : bound = n
      · subst hn; simp [bind, lookup?, hb]
      · simp [bind, lookup?, hb, hn, ih]

theorem get?_assign (s : Store) (name : String) (v : Value) (n : String) :
    (s.assign name v).get? n = if n = name then some v else s.get? n :=
  lookup?_bind name v s.bindings n

theorem keys_bind (name : String) (v : Value) (bs : List (String × Value)) :
    (bind name v bs).map Prod.fst =
      if name ∈ bs.map Prod.fst then bs.map Prod.fst else bs.map Prod.fst ++ [name] := by
  induction bs with
  | nil => rfl
  | cons b rest ih =>
    obtain ⟨bound, old⟩ := b
    by_cases hb : bound = name
    · simp [bind, hb]
    · have hne : ¬ name = bound := fun h => hb h.symm
      simp only [bind, if_neg hb, List.map_cons, ih, List.mem_cons, hne, false_or]
      split <;> rfl

theorem names_assign (s : Store) (name : String) (v : Value) :
    (s.assign name v).names = if name ∈ s.names then s.names else s.names ++ [name] :=
  keys_bind name v s.bindings

end Store
end DeskCheck
