import DeskCheck.Expr
import DeskCheck.Number.Shortest

/-!
# Tokens

An expression is read character by character by a machine with five modes: between two tokens, in
a word, in a number, in a text, and behind one of the marks `=`, `!`, `<`, `>` that an equals sign
may complete.  `advance` is one transition; it yields the tokens which the character has completed.
`scan` runs the machine over a text, and `run_append` says that a text may be cut anywhere as long as
the mode is carried over the cut.

Nothing is refused: a character that begins no token is skipped, a text without its closing quote
runs to the end, and there are no escapes.
-/

namespace DeskCheck

/-- The words that are not names. -/
inductive Keyword where
  | and | or | not | true | false
deriving DecidableEq, Repr

/-- The marks that stand for themselves. -/
inductive Mark where
  | plus | minus | star | slash | percent
  | equal | notEqual | less | lessEqual | greater | greaterEqual
  | assign
  | leftParen | rightParen | leftBracket | rightBracket | comma
deriving DecidableEq, Repr

/-- A token of an expression. -/
inductive Token where
  | number (n : Number)
  | text (s : String)
  | name (s : String)
  | keyword (k : Keyword)
  | mark (m : Mark)
deriving DecidableEq

namespace Keyword

/-- The keyword as it is written. -/
def spelling : Keyword → String
  | .and => "AND" | .or => "OR" | .not => "NOT" | .true => "true" | .false => "false"

def all : List Keyword := [.and, .or, .not, .true, .false]

end Keyword

/-- The mark as it is written. -/
def Mark.spelling : Mark → String
  | .plus => "+" | .minus => "-" | .star => "*" | .slash => "/" | .percent => "%"
  | .equal => "==" | .notEqual => "!="
  | .less => "<" | .lessEqual => "<=" | .greater => ">" | .greaterEqual => ">="
  | .assign => "="
  | .leftParen => "(" | .rightParen => ")" | .leftBracket => "[" | .rightBracket => "]"
  | .comma => ","

namespace Token

/-- The token as messages name it. -/
def describe : Token → String
  | .number (.infinite _) => "number inf"
  | .number n => "number " ++ n.toText
  | .text s => "string literal \"" ++ s ++ "\""
  | .name s => "identifier '" ++ s ++ "'"
  | .keyword k => "'" ++ k.spelling ++ "'"
  | .mark m => "'" ++ m.spelling ++ "'"

/-! ### Character classes -/

/-- A word begins with an ASCII letter or an underscore. -/
def isWordStart (c : Char) : Bool := c.isAlpha || c == '_'

/-- A word goes on with ASCII letters, digits and underscores. -/
def isWordChar (c : Char) : Bool := c.isAlphanum || c == '_'

/-- The keyword or name that a word is. -/
def ofWord (word : List Char) : Token :=
  match Keyword.all.find? fun k => k.spelling.toList = word with
  | some k => .keyword k
  | none => .name (String.ofList word)

/-- The number that a run of digits with at most one point stands for. -/
def ofDigits (digits : List Char) : Token := .number ((Number.read? digits).getD (.zero false))

/-- The mark that a character is by itself and that nothing can complete. -/
def lone? : Char → Option Mark
  | '+' => some .plus | '-' => some .minus | '*' => some .star | '/' => some .slash
  | '%' => some .percent
  | '(' => some .leftParen | ')' => some .rightParen
  | '[' => some .leftBracket | ']' => some .rightBracket
  | ',' => some .comma
  | _ => none

/-- The marks that an equals sign can complete.  An exclamation mark is a token only with one. -/
inductive Opening where
  | assign | bang | less | greater
deriving DecidableEq, Repr

namespace Opening

def ofChar? : Char → Option Opening
  | '=' => some .assign | '!' => some .bang | '<' => some .less | '>' => some .greater
  | _ => none

/-- The token if no equals sign follows. -/
def alone : Opening → List Token
  | .assign => [.mark .assign]
  | .bang => []
  | .less => [.mark .less]
  | .greater => [.mark .greater]

/-- The token with the equals sign. -/
def completed : Opening → Token
  | .assign => .mark .equal
  | .bang => .mark .notEqual
  | .less => .mark .lessEqual
  | .greater => .mark .greaterEqual

end Opening

/-! ### The scanner -/

/-- What the scanner is in the middle of; the characters read so far come in reverse. -/
inductive Mode where
  | between
  | word (read : List Char)
  | number (read : List Char) (pointed : Bool)
  | text (read : List Char)
  | opening (o : Opening)
deriving DecidableEq

/-- The tokens that a mode leaves behind when nothing continues it. -/
def Mode.close : Mode → List Token
  | .between => []
  | .word read => [ofWord read.reverse]
  | .number read _ => [ofDigits read.reverse]
  | .text read => [.text (String.ofList read.reverse)]
  | .opening o => o.alone

/-- The transition on a character that begins something new. -/
def begin (c : Char) : List Token × Mode :=
  if c = '"' then ([], .text [])
  else if c.isDigit then ([], .number [c] false)
  else if isWordStart c then ([], .word [c])
  else match Opening.ofChar? c with
    | some o => ([], .opening o)
    | none => match lone? c with
      | some m => ([.mark m], .between)
      | none => ([], .between)

/-- The transition on a character that may continue the mode: the tokens completed, and the next
mode. -/
def advance (mode : Mode) (c : Char) : List Token × Mode :=
  match mode with
  | .text read => if c = '"' then (mode.close, .between) else ([], .text (c :: read))
  | .word read =>
    if isWordChar c then ([], .word (c :: read)) else (mode.close ++ (begin c).1, (begin c).2)
  | .number read pointed =>
    if c.isDigit then ([], .number (c :: read) pointed)
    else if c = '.' ∧ pointed = false then ([], .number (c :: read) true)
    else (mode.close ++ (begin c).1, (begin c).2)
  | .opening o =>
    if c = '=' then ([o.completed], .between) else (mode.close ++ (begin c).1, (begin c).2)
  | .between => begin c

/-- The tokens completed along a text, and the mode at its end. -/
def run (mode : Mode) : List Char → List Token × Mode
  | [] => ([], mode)
  | c :: rest =>
    let (tokens, next) := advance mode c
    let (later, last) := run next rest
    (tokens ++ later, last)

/-- The tokens of a text. -/
def scan (text : List Char) : List Token :=
  let (tokens, mode) := run .between text
  tokens ++ mode.close

/-- The tokens of an expression. -/
def ofString (s : String) : List Token := scan s.toList

theorem run_append (mode : Mode) (a b : List Char) :
    run mode (a ++ b) =
      ((run mode a).1 ++ (run (run mode a).2 b).1, (run (run mode a).2 b).2) := by
  induction a generalizing mode with
  | nil => rfl
  | cons c a ih => simp only [List.cons_append, run, ih, List.append_assoc]

end Token
end DeskCheck
