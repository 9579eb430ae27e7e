/-
Pads: lines of text seen through a window.

A pad may be longer and wider than its window and scrolls so that the
selected line stays in view. Sizes come from the terminal and may be too
small for anything to fit, even negative, so all positions are integers
and every drawing step is defined for all of them.

A width beyond all measure cannot be drawn at all. All rows of a pad are
equally wide, so then already the first row fails: a pad is drawn as a
whole or not at all (`Pad.refreshError?`).
-/
import Deduction.Console.Drawing
import Deduction.Text.Slice

namespace Deduction.Console

open Text

/-- A pad and the place in it that the window shows. -/
structure Pad where
  window : Window
  lines : List String
  /-- Rows of the window that show the pad. -/
  height : Int
  /-- Columns of the window. -/
  width : Int
  bordered : Bool
  /-- The line in the top row. -/
  scrollLine : Int
  /-- How many characters are out of view on the left. -/
  scrollChar : Int
  /-- The selected line. -/
  cursorLine : Int
  /-- The cursor's place on the selected line. -/
  cursorChar : Int
  /-- Whether the selected line is shown reversed. -/
  highlight : Bool
  deriving DecidableEq, Repr

namespace Pad

/-- An empty pad. -/
def new (window : Window) (height width : Int) (bordered : Bool) : Pad :=
  { window, height, width, bordered
    lines := [], scrollLine := 0, scrollChar := 0, cursorLine := 0
    cursorChar := 0, highlight := false }

/-- The width of the border. -/
def margin (bordered : Bool) : Int := if bordered then 1 else 0

-- =========================================================== selection

/-- Scrolls until the selected line is in view. -/
def adjust (p : Pad) : Pad :=
  if p.cursorLine < p.scrollLine then { p with scrollLine := p.cursorLine }
  else if p.scrollLine + p.height ≤ p.cursorLine then
    { p with scrollLine := p.cursorLine - p.height + 1 }
  else p

/-- Replaces the lines. The selection stays where it is, as far as there
are lines. -/
def setLines (p : Pad) (lines : List String) : Pad :=
  adjust { p with
    lines := lines
    cursorLine := max 0 (min p.cursorLine ((lines.length : Int) - 1)) }

/-- Selects the next line. -/
def cursorDown (p : Pad) : Pad :=
  if p.cursorLine < (p.lines.length : Int) - 1 then
    adjust { p with cursorLine := p.cursorLine + 1 }
  else p

/-- Selects the line before. -/
def cursorUp (p : Pad) : Pad :=
  if 0 < p.cursorLine then adjust { p with cursorLine := p.cursorLine - 1 }
  else p

/-- Moves the cursor right, and the view with it at the edge. -/
def cursorRight (p : Pad) : Pad :=
  let cursorChar := p.cursorChar + 1
  { p with
    cursorChar
    scrollChar :=
      if p.width - 2 < cursorChar - p.scrollChar then p.scrollChar + 1
      else p.scrollChar }

/-- Moves the cursor left, and the view with it at the edge. -/
def cursorLeft (p : Pad) : Pad :=
  if 0 < p.cursorChar then
    let cursorChar := p.cursorChar - 1
    { p with
      cursorChar
      scrollChar :=
        if cursorChar < p.scrollChar then p.scrollChar - 1 else p.scrollChar }
  else p

-- ============================================================= drawing

/-- The characters of a row inside the border; the last column stays
free. -/
def room (width : Int) (bordered : Bool) : Int :=
  width - 2 * margin bordered - 1

/-- Writes a line of text to a row of a window: the part that starts at
character `i`, cut or filled to the width inside the border. -/
def drawLine (window : Window) (row : Int) (text : List Char) (i width : Int)
    (reverse bordered : Bool) : Call :=
  let b := margin bordered
  let room := room width bordered
  .write window (row + b) b (padRight (slice text i (i + room)) room)
    (some (if reverse then .reverse else .normal))

/-- Blanks a row of the window. -/
def clearLine (p : Pad) (row : Int) : Call :=
  let b := margin p.bordered
  .write p.window (row + b) b (spaces (room p.width p.bordered)) none

/-- Why a row cannot be blanked. -/
def clearError? (p : Pad) : Option RoomError :=
  blankError? (room p.width p.bordered)

/-- One row of the window: the pad's line there, or a blank past the
last line. -/
def drawRow (p : Pad) (row : Nat) : Call :=
  let line := row + p.scrollLine
  match p.lines[line.toNat]? with
  | some text =>
    drawLine p.window row text.toList p.scrollChar p.width
      (p.highlight && line == p.cursorLine) p.bordered
  | none => p.clearLine row

/-- Where the terminal's cursor belongs: on the selected line of a pad
that shows a selection, otherwise on the cursor's character. -/
def place (p : Pad) : Call :=
  let b := margin p.bordered
  if p.highlight then .move p.window (p.cursorLine - p.scrollLine + b) b
  else .move p.window b (p.cursorChar - p.scrollChar + b)

/-- Why the pad cannot be drawn: the error of its first row, if it has
rows. -/
def refreshError? (p : Pad) : Option RoomError :=
  if p.height ≤ 0 then none
  else if p.lines[p.scrollLine.toNat]?.isSome then
    fillError? (room p.width p.bordered)
  else p.clearError?

/-- Draws the whole pad, if it can be drawn. -/
def refresh (p : Pad) : List Call :=
  if p.refreshError?.isSome then []
  else
    (List.range p.height.toNat).map p.drawRow ++ [p.place, .refresh p.window]

end Pad

end Deduction.Console
