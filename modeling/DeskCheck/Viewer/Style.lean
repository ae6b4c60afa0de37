/-!
# Styles

A span is a text of one style.  What the panes show is made of spans.
-/

namespace DeskCheck.Viewer

/-- A colour of the terminal: its black, or a colour given by red, green and blue. -/
inductive Color where
  | black
  | rgb (code : UInt32)
deriving DecidableEq, Repr

/-- How a cell is shown; a colour left out is the terminal's own. -/
structure Style where
  foreground : Option Color
  background : Option Color
  bold : Bool
deriving DecidableEq, Repr

namespace Style

def plain : Style := ⟨none, none, false⟩

def ink (c : Color) : Style := { plain with foreground := some c }

def on (s : Style) (c : Color) : Style := { s with background := some c }

def strong (s : Style) : Style := { s with bold := true }

end Style

namespace Color

def text : Color := .rgb 0xcdd6f4
def blue : Color := .rgb 0x89b4fa
def orange : Color := .rgb 0xfab387
def grey : Color := .rgb 0x6c7086
def green : Color := .rgb 0xa6e3a1
def red : Color := .rgb 0xf38ba8
def yellow : Color := .rgb 0xf9e2af
def teal : Color := .rgb 0x94e2d5
/-- The background of the current line, and of the status bar. -/
def shade : Color := .rgb 0x323246

end Color

/-- A text of one style. -/
structure Span where
  text : List Char
  style : Style
deriving DecidableEq, Repr

def Span.ofString (s : String) (style : Style) : Span := ⟨s.toList, style⟩

end DeskCheck.Viewer
