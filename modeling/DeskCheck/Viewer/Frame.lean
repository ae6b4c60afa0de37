import DeskCheck.Viewer.Scroll
import DeskCheck.Viewer.Highlight
import DeskCheck.Table.Layout

/-!
# Frames

A frame is what the panes are given to show: the lines of the listing and of the output, the rows of
the table under their titles, and the status bar, as texts with their styles.  It depends on the state
and on the heights of the panes alone.  How texts take up the cells of a screen, where they are cut
and how a border is drawn around them is up to the terminal.
-/

namespace DeskCheck.Viewer

/-! ### What a pane is given -/

/-- The border around a pane. -/
structure Box where
  title : String
  style : Style
  /-- How many columns stay free behind the left border. -/
  indent : Nat
deriving DecidableEq, Repr

/-- Lines in a box, each of them spans in a row. -/
@[ext]
structure Listing where
  box : Box
  /-- The style of the whole pane, under those of the spans. -/
  base : Style
  lines : List (List Span)
deriving DecidableEq, Repr

/-- Texts in columns. -/
structure GridRow where
  cells : List Span
  /-- The style of the whole row, under those of the cells. -/
  base : Style
deriving DecidableEq, Repr

/-- Rows in a box, under their titles. -/
structure Grid where
  box : Box
  titles : GridRow
  /-- The widths of the columns. -/
  widths : List Nat
  /-- How many columns of the screen stay free between two columns. -/
  gap : Nat
  rows : List GridRow
deriving DecidableEq, Repr

/-- Spans from the left, and spans that end at the right. -/
structure StatusBar where
  base : Style
  left : List Span
  right : List Span
deriving DecidableEq, Repr

/-- What is shown at one time. -/
structure Frame where
  source : Listing
  /-- There is no output pane without a current snapshot. -/
  output : Option Listing
  table : Grid
  status : StatusBar
deriving DecidableEq, Repr

/-- The border of a pane, which tells whether the pane has the focus. -/
def Box.ofTitle (title : String) (focused : Bool) (indent : Nat) : Box :=
  ⟨title, if focused then (Style.ink .yellow).strong else .ink .grey, indent⟩

/-- A number in the given least width, filled up with spaces on the left. -/
def numberText (width n : Nat) : List Char := Text.padLeft width (toString n).toList

namespace State

/-! ### The source listing -/

/-- A source line with its number; the current one has a mark and a background. -/
def sourceLine (s : State) (line : String) (index : Nat) : List Span :=
  let number := index + 1
  let body := Highlight.spans line.toList
  if number = s.currentLine then
    ⟨'▶' :: numberText 3 number ++ [' '], (Style.ink .orange).strong⟩ ::
      body.map fun span => { span with style := span.style.on .shade }
  else ⟨' ' :: numberText 3 number ++ [' '], .ink .grey⟩ :: body

/-- The source pane: the lines in view. -/
def sourcePane (s : State) (height : Nat) : Listing where
  box := .ofTitle (" " ++ s.title ++ " ") (s.focus = .source) 0
  base := .plain
  lines := ((s.source.zipIdx.drop s.sourceOffset).take (rowsInView height 2)).map
    fun (line, index) => s.sourceLine line index

/-! ### The output -/

/-- The style of a printed text; those of the current step stand out. -/
def outputStyle (new : Bool) : Style := if new then (Style.ink .green).strong else .ink .text

/-- A printed line behind the number of the line that printed it. -/
def outputLine (s : State) (o : OutputLine) (index : Nat) : List Span :=
  [⟨numberText 3 (o.line + 1) ++ [' '], .ink .grey⟩,
    .ofString o.text (outputStyle (s.printedBefore ≤ index))]

/-- The output pane: the printed lines in view. -/
def outputPane (s : State) (height : Nat) : Listing :=
  let focused : Bool := s.focus = .output
  if s.output = [] then
    { box := .ofTitle " Output " focused 0
      base := .ink .grey
      lines := [[.ofString "(no output)" .plain]] }
  else
    { box := .ofTitle " Output " focused 1
      base := .plain
      lines := ((s.output.zipIdx.drop s.outputOffset).take (rowsInView height 2)).map
        fun (o, index) => s.outputLine o index }

/-! ### The trace table -/

/-- The styles of the cells of a row: step and line, the entries, the accesses, the output. -/
def cellStyles (r : Row) : List Style :=
  [.ink .text, .ink .text] ++
    r.entries.map (fun e => if e.changed then (Style.ink .yellow).strong else .ink .grey) ++
    [.ink .blue, .ink .green]

/-- A row of the table; that of the current step has a background. -/
def tableRow (r : Row) (current : Bool) : GridRow where
  cells := List.zipWith Span.mk (r.cells Entry.currentText) (cellStyles r)
  base := if current then Style.plain.on .shade else .plain

/-- The table pane: the revealed rows in view.  The columns are as wide as all revealed rows need,
counted in characters; a width is a word of sixteen bits. -/
def tablePane (s : State) (height : Nat) : Grid :=
  let titles := s.table.titles "Access"
  let widths := Table.widths titles (s.revealed.map (Row.cells Entry.currentText))
  { box := .ofTitle " Trace Table " (s.focus = .table) 0
    titles := ⟨titles.map fun title => ⟨title, .plain⟩, (Style.ink .teal).strong⟩
    widths := widths.map (· % UInt16.size)
    gap := 2
    rows := ((s.revealed.zipIdx.drop (s.tableOffset height)).take (rowsInView height 3)).map
      fun (r, index) => tableRow r (index = s.selectedRow) }

/-! ### The status bar -/

/-- The position in the trace and the message of the last key. -/
def statusSpans (s : State) : List Span := [
  .ofString (" Step " ++ toString s.cursor.position ++ "/" ++ toString s.cursor.lastPosition ++ " ")
    ((Style.ink .black).on .blue).strong,
  .ofString " | " ((Style.ink .grey).on .shade),
  .ofString (" " ++ s.status ++ " ") ((Style.ink .text).on .shade)]

/-- A mark for the two ends of the trace; a trace that was cut short does not simply end. -/
def badge? (s : State) : Option (String × Color) :=
  if s.cursor.lastPosition ≤ s.cursor.position then
    if s.cursor.trace.termination.isComplete then some (" END ", .red)
    else some (" TRUNCATED ", .orange)
  else if s.cursor.position = 0 then some (" START ", .green)
  else none

/-- The keys and what they do, and the mark. -/
def helpSpans (s : State) : List Span :=
  let key (text : String) : Span := .ofString text ((Style.ink .black).on .grey)
  let meaning (text : String) : Span := .ofString text ((Style.ink .text).on .shade)
  let divider : Span := .ofString "│" ((Style.ink .grey).on .shade)
  let help := [
    key " ←/→ ", meaning " step ", divider, meaning " ",
    key " ↵ / ⌫ ", meaning " end/start ", divider, meaning " ",
    key " ⇥ ", meaning " focus ", divider, meaning " ",
    key "q", meaning " quit "]
  match s.badge? with
  | some (text, color) =>
    help ++ [divider, .ofString text ((Style.ink .black).on color).strong]
  | none => help

/-- The status bar. -/
def statusBar (s : State) : StatusBar := ⟨Style.plain.on .shade, s.statusSpans, s.helpSpans⟩

/-! ### Drawing -/

/-- The frame of a state that is settled for the sizes of the panes. -/
def frame (s : State) (d : Division) : Frame where
  source := s.sourcePane d.sourceHeight
  output := s.cursor.current?.map fun _ => s.outputPane d.outputHeight
  table := s.tablePane d.height
  status := s.statusBar

/-- Draws on a screen divided by a rule: the state with its scroll counts brought into bounds, and the
frame. -/
def draw (layout : Layout) (s : State) (width height : Nat) : State × Frame :=
  let d := layout width height
  let s := s.settle d
  (s, s.frame d)

end State
end DeskCheck.Viewer
