import DeskCheck.Value

/-!
# Accesses

An access is one read or write of an element of a named sequence.  Sequences have no column in a
trace table; their accesses show what happened to them.
-/

namespace DeskCheck

inductive AccessKind where
  | read | write
deriving DecidableEq, Repr

/-- One access, with the value that was read or written. -/
structure Access where
  name : String
  position : Nat
  value : Value
  kind : AccessKind

/-- The access as the table shows it: an arrow out of the element, or into it. -/
def Access.toText (a : Access) : String :=
  let arrow := match a.kind with
    | .read => "->"
    | .write => "<-"
  a.name ++ "[" ++ toString a.position ++ "] " ++ arrow ++ " " ++ a.value.toText

end DeskCheck
