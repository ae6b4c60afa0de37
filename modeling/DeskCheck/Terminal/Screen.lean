import DeskCheck.Terminal.Picture
import DeskCheck.Viewer.Frame

/-!
# Screens

The screen draws frames as pictures.  It decides nothing about what is shown: the texts of a frame are
put into their places, and cut where the place ends.
-/

namespace DeskCheck.Terminal

open Viewer
open Picture (boxed resize beside above)

/-- A pane of lines. -/
def listing (width height : Nat) (pane : Listing) : Picture :=
  let indent := List.replicate pane.box.indent Cell.blank
  boxed width height pane.box.title pane.box.style ⟨' ', pane.base⟩
    (pane.lines.map fun spans => indent ++ spans.flatMap (cells pane.base))

/-- A row of texts in columns, over a style that covers the whole width. -/
def gridRow (width : Nat) (pane : Grid) (row : GridRow) : List Cell :=
  let filler : Cell := ⟨' ', row.base⟩
  let gap := List.replicate pane.gap filler
  let column (w : Nat) (span : Span) : List Cell :=
    fit w ⟨' ', overlay row.base span.style⟩ (cells row.base span)
  fit width filler ((List.zipWith column pane.widths row.cells).intersperse gap).flatten

/-- A pane of rows under their titles. -/
def grid (width height : Nat) (pane : Grid) : Picture :=
  boxed width height pane.box.title pane.box.style .blank
    ((pane.titles :: pane.rows).map (gridRow (width - 2) pane))

/-- The status bar: the left spans in the first half, and the end of the right ones in the other. -/
def statusBar (width : Nat) (bar : StatusBar) : List Cell :=
  let left := share 50 width
  let right := width - left
  let filler : Cell := ⟨' ', bar.base⟩
  let help := bar.right.flatMap (cells bar.base)
  fit left filler (bar.left.flatMap (cells bar.base)) ++
    (List.replicate (right - help.length) filler ++ help.take right)

/-- The picture of a frame on a screen of a size that is divided among the panes. -/
def picture (d : Division) (width height : Nat) (frame : Frame) : Picture :=
  let output := frame.output.map (listing d.leftWidth d.outputHeight)
  let left := above (listing d.leftWidth d.sourceHeight frame.source) (output.getD [])
  let right := grid d.rightWidth d.height frame.table
  resize width height .blank
    (above (beside (resize d.leftWidth d.height .blank left) right)
      [statusBar width frame.status])

end DeskCheck.Terminal
