/-!
# Lines and columns

Lines are the pieces of a text between line feeds; a column is a text filled up with spaces to a
width, counted in characters.
-/

namespace DeskCheck.Text

/-! ### Lines -/

/-- The line that ends at a line feed: a carriage return in front of it belongs to the line end.
The characters come in reverse. -/
def closeLine : List Char → List Char
  | '\r' :: rest => rest.reverse
  | cs => cs.reverse

/-- The lines of a text whose current line has begun with the given characters, in reverse. -/
def linesFrom (begun : List Char) : List Char → List (List Char)
  | [] => if begun = [] then [] else [begun.reverse]
  | '\n' :: rest => closeLine begun :: linesFrom [] rest
  | c :: rest => linesFrom (c :: begun) rest

/-- The lines of a text.  A line feed ends a line, so a text that ends in one has no empty last
line. -/
def lines (text : List Char) : List (List Char) := linesFrom [] text

/-! ### Columns -/

/-- The text filled up with spaces on the right to the given number of characters, which is not
bounded: a platform that keeps such widths in words of sixteen bits refuses columns wider than 65535. -/
def padRight (width : Nat) (text : List Char) : List Char :=
  text ++ List.replicate (width - text.length) ' '

/-- The text filled up with spaces on the left to the given number of characters. -/
def padLeft (width : Nat) (text : List Char) : List Char :=
  List.replicate (width - text.length) ' ' ++ text

end DeskCheck.Text
