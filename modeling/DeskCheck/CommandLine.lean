import DeskCheck.Sample
import DeskCheck.Table.Layout
import DeskCheck.Viewer.State

/-!
# The command line

The arguments are read from left to right.  `-h` and `--list-presets` answer at once, whatever
follows them; of several inputs or step limits the last one counts.  Without `--dump` the trace is
opened in the viewer.

Everything but the reading of a file is decided here: `respond` takes the reader as an argument, so
the same function answers over a file system and over a list of files.
-/

namespace DeskCheck.CommandLine

/-! ### Arguments -/

/-- Where the program comes from. -/
inductive Input where
  | file (path : String)
  | sample (s : Sample)

structure Options where
  input : Input
  maxSteps : Option Nat
  dump : Bool

inductive Command where
  | run (options : Options)
  | list
  | help

/-- Why arguments are no command. -/
inductive ArgumentError where
  | sampleNameMissing
  | unknownSample (name : String)
  | stepsMissing
  | invalidSteps (text : String)
  | unknownOption (flag : String)
  | inputMissing
deriving DecidableEq, Repr

def ArgumentError.message : ArgumentError → String
  | .sampleNameMissing => "--preset needs a name"
  | .unknownSample name => "Unknown preset '" ++ name ++ "'"
  | .stepsMissing => "--max-steps needs a number"
  | .invalidSteps text => "Invalid step limit '" ++ text ++ "'"
  | .unknownOption flag => "Unknown option '" ++ flag ++ "'"
  | .inputMissing => "No input file or preset provided"

/-- The largest number of steps: counts are 64-bit words. -/
def maxCount : Nat := UInt64.size - 1

/-- The value of digits that are a count. -/
def digitsCount? (ds : List Char) : Option Nat :=
  let n := Nat.ofDigitChars 10 ds 0
  if ds ≠ [] ∧ ds.all Char.isDigit ∧ n ≤ maxCount then some n else none

/-- A count: ASCII digits, perhaps behind a plus sign. -/
def count? (text : String) : Option Nat :=
  match text.toList with
  | '+' :: ds => digitsCount? ds
  | ds => digitsCount? ds

/-- Reads the arguments on, after those that have set the options given. -/
def commandFrom (input : Option Input) (maxSteps : Option Nat) (dump : Bool) :
    List String → Except ArgumentError Command
  | [] =>
    match input with
    | some input => .ok (.run ⟨input, maxSteps, dump⟩)
    | none => .error .inputMissing
  | "-h" :: _ => .ok .help
  | "--help" :: _ => .ok .help
  | "--list-presets" :: _ => .ok .list
  | "--dump" :: rest => commandFrom input maxSteps true rest
  | "--preset" :: [] => .error .sampleNameMissing
  | "--preset" :: name :: rest =>
    match Sample.find? name with
    | some sample => commandFrom (some (.sample sample)) maxSteps dump rest
    | none => .error (.unknownSample name)
  | "--max-steps" :: [] => .error .stepsMissing
  | "--max-steps" :: text :: rest =>
    match count? text with
    | some n => commandFrom input (some n) dump rest
    | none => .error (.invalidSteps text)
  | argument :: rest =>
    if argument.toList.head? = some '-' then .error (.unknownOption argument)
    else commandFrom (some (.file argument)) maxSteps dump rest

/-- Reads the arguments. -/
def command (arguments : List String) : Except ArgumentError Command :=
  commandFrom none none false arguments

/-! ### Answers -/

/-- Why a file could not be read. -/
inductive ReadError where
  | missing
  | directory
  /-- A part of the path in front of another one is a file. -/
  | notDirectory
  | denied
  | nameTooLong
  | notText
  | other (text : String)
deriving DecidableEq, Repr

def ReadError.message : ReadError → String
  | .missing => "No such file or directory (os error 2)"
  | .directory => "Is a directory (os error 21)"
  | .notDirectory => "Not a directory (os error 20)"
  | .denied => "Permission denied (os error 13)"
  | .nameTooLong => "File name too long (os error 36)"
  | .notText => "stream did not contain valid UTF-8"
  | .other text => text

/-- What the program does: it writes something and ends, or it opens the viewer. -/
inductive Response where
  | exit (code : Nat) (out err : String)
  | view (state : Viewer.State)

/-- Lines as one text; every line ends in a line feed. -/
def unlines (lines : List String) : String := String.join (lines.map (· ++ "\n"))

def programName : String := "tracetable"

def usage : String := unlines [
  "Usage: " ++ programName ++ " [OPTIONS] <file>",
  "       " ++ programName ++ " [OPTIONS] --preset <name>",
  "",
  "Options:",
  "  --preset <name>    Trace a built-in program instead of a file",
  "  --max-steps <n>    Stop after visiting n lines (default 500)",
  "  --dump             Print the trace table instead of opening the viewer",
  "  --list-presets     List the built-in programs",
  "  -h, --help         Show this message",
  "",
  "Set RUST_LOG (e.g. RUST_LOG=" ++ programName ++ "=debug) to log execution to stderr."]

/-- The list of the samples, with the descriptions in a column. -/
def sampleList : String :=
  unlines (Sample.all.map fun s =>
    String.ofList (Text.padRight 18 s.name.toList) ++ " " ++ s.description)

/-- The budget of a run with the given options. -/
def Options.budget (o : Options) : Budget :=
  { Budget.standard with steps := o.maxSteps.getD Budget.standard.steps }

/-- Runs a program and shows its trace. -/
def present (o : Options) (title source : String) : Response :=
  let program := Program.ofSource source
  let trace := program.trace o.budget
  if o.dump then
    .exit 0 (trace.table.toText ++ "\n" ++ trace.termination.message ++ "\n") ""
  else .view (Viewer.State.ofTrace trace program.source title)

/-- The answer to the arguments, with a reader for files. -/
def respond {m : Type → Type} [Monad m] (read : String → m (Except ReadError String))
    (arguments : List String) : m Response :=
  match command arguments with
  | .error e => pure (.exit 1 "" ("Error: " ++ e.message ++ "\n\n" ++ usage))
  | .ok .help => pure (.exit 0 "" usage)
  | .ok .list => pure (.exit 0 sampleList "")
  | .ok (.run o) =>
    match o.input with
    | .sample s => pure (present o s.name s.source)
    | .file path => do
      match ← read path with
      | .ok source => pure (present o path source)
      | .error e =>
        pure (.exit 1 "" ("Error: cannot read '" ++ path ++ "': " ++ e.message ++ "\n"))

end DeskCheck.CommandLine
