import DeskCheck.Store
import DeskCheck.Access

/-!
# Snapshots

A snapshot is the whole state that a reader of a trace can see after one line has been carried out:
the variables, everything printed so far, and the elements which this line read and wrote.
-/

namespace DeskCheck

/-- A printed text and the index of the line that printed it. -/
structure OutputLine where
  text : String
  line : Nat
deriving DecidableEq, Repr

/-- The state after one line; the first snapshot of a trace comes before any line. -/
structure Snapshot where
  line : Option Nat
  store : Store
  output : List OutputLine
  accesses : List Access

namespace Snapshot

/-- The state before the first line. -/
def initial : Snapshot := ⟨none, .empty, [], []⟩

/-- The bytes that a snapshot takes besides what it holds. -/
def ownBytes : Nat := 120

/-- The estimated memory of what is printed, in bytes. -/
def outputBytes : List OutputLine → Nat
  | [] => 0
  | o :: rest => o.text.utf8ByteSize + 32 + outputBytes rest

/-- The estimated memory of a snapshot, in bytes. -/
def bytes (s : Snapshot) : Nat :=
  ownBytes + s.store.bytes + outputBytes s.output + 64 * s.accesses.length

end Snapshot
end DeskCheck
