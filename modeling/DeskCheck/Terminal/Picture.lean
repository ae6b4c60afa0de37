import DeskCheck.Terminal.Columns
import DeskCheck.Viewer.Style

/-!
# Pictures

A picture is a grid of cells, each a character with a style.  Panes are drawn as pictures of a fixed
size and put beside and above each other, so no pane can draw outside of its place: `fit` cuts or
fills a row to a width, and `resize` does so with the rows of a picture as well.

A character of two columns stands in the first of two cells and leaves the second one plain.  Where
only one of them is left it is not drawn.
-/

namespace DeskCheck.Terminal

open Viewer

/-! ### Cells and rows -/

/-- One cell of the screen. -/
structure Cell where
  char : Char
  style : Style
deriving DecidableEq, Repr

def Cell.blank : Cell := ⟨' ', .plain⟩

/-- A style with another one put over it. -/
def overlay (below above : Style) : Style where
  foreground := above.foreground <|> below.foreground
  background := above.background <|> below.background
  bold := below.bold || above.bold

/-- The cells of a span over a style. -/
def cells (base : Style) (s : Span) : List Cell :=
  let style := overlay base s.style
  s.text.flatMap fun c =>
    match columns c with
    | 0 => []
    | 1 => [⟨c, style⟩]
    | _ => [⟨c, style⟩, .blank]

/-- The first cells of a row, without the first half of a character that is cut in two. -/
def cut : (width : Nat) → List Cell → List Cell
  | 0, _ => []
  | _, [] => []
  | 1, c :: _ => if columns c.char = 2 then [] else [c]
  | width + 2, c :: rest => c :: cut (width + 1) rest

/-- A row cut to a width, or filled up to it with a cell. -/
def fit (width : Nat) (filler : Cell) (row : List Cell) : List Cell :=
  let kept := cut width row
  kept ++ List.replicate (width - kept.length) filler

/-! ### Pictures -/

/-- The rows of a picture from top to bottom. -/
abbrev Picture := List (List Cell)

namespace Picture

/-- The picture cut or filled to a width and a height. -/
def resize (width height : Nat) (filler : Cell) (p : Picture) : Picture :=
  (p.take height).map (fit width filler) ++
    List.replicate (height - p.length) (List.replicate width filler)

/-- Two pictures of the same height, side by side. -/
def beside (left right : Picture) : Picture := List.zipWith (· ++ ·) left right

/-- Two pictures of the same width, the first above the second. -/
def above (top bottom : Picture) : Picture := top ++ bottom

/-- A picture in a box of the given outer size, with a title in the upper border. -/
def boxed (width height : Nat) (title : String) (border : Style) (filler : Cell) (p : Picture) :
    Picture :=
  let edge (c : Char) : Cell := ⟨c, border⟩
  let inner := width - 2
  let top := fit inner (edge '─') (cells .plain (.ofString title border))
  let body := (resize inner (height - 2) filler p).map fun row => edge '│' :: row ++ [edge '│']
  let bottom := List.replicate inner (edge '─')
  resize width height .blank
    ((edge '┌' :: top ++ [edge '┐']) :: body ++ [edge '└' :: bottom ++ [edge '┘']])

end Picture
end DeskCheck.Terminal
