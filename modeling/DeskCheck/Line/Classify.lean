import DeskCheck.Line
import DeskCheck.Expr.Parse
import DeskCheck.Text.Blank

/-!
# Reading lines

A line is told by its first word, which is in capitals and ends at a blank or at the end of the
line.  A line with no such word is an assignment if it has an equals sign outside of quotes and
brackets that is no part of a comparison, and a name or an element of a name in front of it.
Everything else is unrecognized; reading a line never fails.
-/

namespace DeskCheck.Line

open Text (isBlank trim trimEnd)

/-! ### Keywords -/

/-- What follows a keyword that stands at the front of a line as a whole word. -/
def afterWord? (word : String) (line : List Char) : Option (List Char) := do
  let rest ← List.isPrefixOf? word.toList line
  if (rest.head?).all isBlank then some (trim rest) else none

/-- A guard without the word `THEN` at its end.  The word may stand right behind a bracket. -/
def dropThen (guard : List Char) : List Char :=
  match List.isSuffixOf? "THEN".toList guard with
  | none => guard
  | some head =>
    if (head.getLast?).all (fun c => isBlank c || c == ')') then trimEnd head else guard

/-- A guard, if it is an expression. -/
def guard? (text : List Char) : Option Expr := (Expr.parse text).toOption

/-! ### Assignments -/

/-- Looks for the assignment sign in the rest of a line, and yields what is in front of it and what
is behind.  The characters passed come in reverse; `depth` counts open brackets. -/
def splitFrom (passed : List Char) (quoted : Bool) (depth : Nat) :
    List Char → Option (List Char × List Char)
  | [] => none
  | c :: rest =>
    if c = '"' then splitFrom (c :: passed) (!quoted) depth rest
    else if quoted then splitFrom (c :: passed) quoted depth rest
    else if c = '(' ∨ c = '[' then splitFrom (c :: passed) quoted (depth + 1) rest
    else if c = ')' ∨ c = ']' then splitFrom (c :: passed) quoted (depth - 1) rest
    else if c = '=' ∧ depth = 0 ∧ (passed.head?).all (fun p => p ∉ ['=', '!', '<', '>']) ∧
        rest.head? ≠ some '=' then
      some (passed.reverse, rest)
    else splitFrom (c :: passed) quoted depth rest

/-- The two sides of the assignment sign of a line. -/
def splitAssignment? (line : List Char) : Option (List Char × List Char) := splitFrom [] false 0 line

/-- The place of the assignment sign, in bytes of the line's UTF-8 form. -/
def assignmentOffset? (line : List Char) : Option Nat :=
  (splitAssignment? line).map fun (left, _) => (String.ofList left).utf8ByteSize

/-- Whether a text is a name: a word that is no keyword. -/
def isName : List Char → Bool
  | [] => false
  | c :: rest =>
    Token.isWordStart c && rest.all Token.isWordChar &&
      !Keyword.all.any fun k => k.spelling.toList = c :: rest

/-- The target of an assignment: a name, or a name and an index between the first opening bracket
and a closing bracket at the end. -/
def target? (left : List Char) : Option Target :=
  let name := trim (left.takeWhile (· ≠ '['))
  match left.dropWhile (· ≠ '[') with
  | [] => if isName left then some (.name (String.ofList left)) else none
  | _ :: inner => do
    let index ← List.isSuffixOf? [']'] inner
    if isName name then
      return .element (String.ofList name) (← (Expr.parse index).toOption)
    else none

/-- The assignment that a line is. -/
def assignment? (line : List Char) : Option Line := do
  let (left, right) ← splitAssignment? line
  let target ← target? (trim left)
  let value ← (Expr.parse right).toOption
  return .assign target value

/-! ### Lines -/

/-- Reads a line without blanks at its ends. -/
def classifyTrimmed (line : List Char) : Line :=
  if line = [] then .blank
  else if line = "ENDIF".toList then .endIf
  else if line = "ENDWHILE".toList then .endWhile
  else if line = "ELSE".toList then .otherwise
  else
    match afterWord? "ELSEIF" line with
    | some rest => .elseIf (guard? (dropThen rest))
    | none =>
    match afterWord? "IF" line with
    | some rest => .ifThen (guard? (dropThen rest))
    | none =>
    match afterWord? "WHILE" line with
    | some rest => .whileDo (guard? rest)
    | none =>
    match afterWord? "PRINT" line with
    | some rest =>
      match Expr.parse rest with
      | .ok e => .print e
      | .error _ => .unrecognized
    | none => (assignment? line).getD .unrecognized

/-- Reads a line. -/
def classify (line : List Char) : Line := classifyTrimmed (trim line)

end DeskCheck.Line
