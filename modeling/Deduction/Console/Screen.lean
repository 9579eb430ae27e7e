/-
The screen: a goal window, a proof window below it, and a status bar in
the last row.

A screen holds its three pads, the text being typed in the status bar,
and the drawing calls made so far. Nothing on it waits for a key; that
is the business of the machines in `Console.Turn`.
-/
import Deduction.Console.Pad

namespace Deduction.Console

open Text

/-- Whether typed characters push the text aside or replace it. -/
inductive Mode where
  | insert
  | replace
  deriving DecidableEq, Repr

/-- The screen. -/
structure Screen where
  goal : Pad
  proof : Pad
  status : Pad
  /-- The text in the status bar while it is edited, as the cells that
  are put in, replaced and taken out one at a time. The line editor puts
  one character into each. -/
  cells : List (List Char)
  /-- The calls made so far, in order. -/
  calls : List Call
  deriving DecidableEq, Repr

namespace Screen

/-- Makes drawing calls. -/
def draw (s : Screen) (calls : List Call) : Screen :=
  { s with calls := s.calls ++ calls }

/-- Notes that a key was read. -/
def press (s : Screen) (k : Keystroke) : Screen :=
  s.draw [.key k]

/-- The sides of a border. -/
def sides : List Glyph := [.vertical, .vertical, .horizontal, .horizontal]

/-- Sets up a screen of the given size. The goal window stands on the
proof window and shares a border line with it. -/
def start (lines cols : Int) : Screen :=
  let height := lines - 4
  { goal := .new .goal 1 cols true
    proof := { Pad.new .proof (height - 2) cols true with highlight := true }
    status := .new .status 1 cols false
    cells := []
    calls :=
      [.echo false, .cbreak true, .keypad true,
       .newWindow .goal 3 cols 0 0,
       .newWindow .proof height cols 2 0,
       .newWindow .status 1 cols (lines - 1) 0,
       .border .goal (sides ++ [.upperLeft, .upperRight, .leftTee, .rightTee]),
       .border .proof (sides ++ [.leftTee, .rightTee, .lowerLeft, .lowerRight]),
       .refresh .goal, .refresh .proof] }

/-- Gives the terminal back. -/
def exit (s : Screen) : Screen :=
  s.draw [.cbreak false, .keypad false, .echo true, .close]

/-- Shows a message in the status bar, as much of it as fits. Nothing
is shown if the bar cannot be blanked first (`Pad.clearError?`). -/
def say (s : Screen) (message : String) : Screen :=
  if s.status.clearError?.isSome then s
  else
    s.draw
      [s.status.clearLine 0,
       .write .status 0 0 (slice message.toList 0 (s.status.width - 1)) none,
       .refresh .status]

/-- Shows a message that has to be answered with ENTER. -/
def ask (s : Screen) (message : String) : Screen :=
  s.say (message ++ " Press ENTER to continue")

/-- Shows the goal. -/
def showGoal (s : Screen) (text : String) : Screen :=
  let goal := s.goal.setLines [text]
  { s with goal }.draw goal.refresh

/-- Shows the lines of the proof. -/
def showProof (s : Screen) (lines : List String) : Screen :=
  let proof := s.proof.setLines lines
  { s with proof }.draw proof.refresh

/-- Shows the status bar again after a change to its pad. -/
def showStatus (s : Screen) (status : Pad) : Screen :=
  { s with status }.draw status.refresh

/-- The text being edited. -/
def editText (s : Screen) : String :=
  String.ofList s.cells.flatten

/-- Replaces the text being edited. -/
def setCells (s : Screen) (cells : List (List Char)) : Screen :=
  { s with
    cells
    status := { s.status with lines := [String.ofList cells.flatten] } }

/-- Takes a new cell into the text at the given place. In replace mode it
takes the place of the cell there, which fails if that is outside the
text. -/
def type (s : Screen) (i : Int) (mode : Mode) (cell : List Char) :
    Except EditError Screen :=
  let cells :=
    if mode = .replace ∧ i < s.cells.length then replaceAt s.cells i cell
    else insertAt s.cells i cell
  cells.map fun cells =>
    let s := s.setCells cells
    s.showStatus s.status.cursorRight

end Screen

end Deduction.Console
