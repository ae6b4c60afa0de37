import DeskCheck.CommandLine
import DeskCheck.Terminal.Screen

/-!
# The program

Reads the arguments and files, and writes what `CommandLine.respond` answers.  The viewer is driven
line by line: each frame is written as plain text, and each line of the input names one key.
-/

namespace DeskCheck

/-- Reads a file as text. -/
def readText (path : String) : IO (Except CommandLine.ReadError String) := do
  match ← (IO.FS.readBinFile path).toBaseIO with
  | .ok bytes =>
    match String.fromUTF8? bytes with
    | some text => return .ok text
    | none => return .error .notText
  | .error (.noFileOrDirectory ..) => return .error .missing
  | .error (.inappropriateType _ code _) =>
    return .error (if code = 21 then .directory else .notDirectory)
  | .error (.permissionDenied ..) => return .error .denied
  | .error e => return .error (.other (toString e))

/-- Shows frames and takes keys until the viewer is left or the input ends. -/
partial def view (state : Viewer.State) : IO Unit := do
  if state.quit then return
  let (width, height) := (120, 31)
  let (state, frame) := state.draw .ofScreen width height
  for row in Terminal.picture (.ofScreen width height) width height frame do
    IO.println (String.ofList (row.map Terminal.Cell.char))
  let line ← (← IO.getStdin).getLine
  if line.isEmpty then return
  view (state.press (.ofName (String.ofList (Text.trim line.toList))))

end DeskCheck

open DeskCheck in
/-- The program. -/
def main (arguments : List String) : IO UInt32 := do
  match ← CommandLine.respond readText arguments with
  | .exit code out err =>
    IO.print out
    IO.eprint err
    return code.toUInt32
  | .view state =>
    view state
    return 0
