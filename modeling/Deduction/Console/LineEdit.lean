/-
The line editor in the status bar.

It edits one line of text at an index. The first characters may be a
prompt that the cursor does not enter. ENTER ends with the text, ESC
without.
-/
import Deduction.Console.Turn

namespace Deduction.Console

/-- The state of the editor; the text itself is on the screen. -/
structure LineEdit where
  /-- Where the next character goes. -/
  index : Int
  /-- The length of the prompt. -/
  start : Int
  mode : Mode
  deriving DecidableEq, Repr

/-- The other mode. -/
def Mode.toggle : Mode → Mode
  | .insert => .replace
  | .replace => .insert

namespace LineEdit

/-- Puts a text into the status bar for editing at an index. -/
def begin (screen : Screen) (text : String) (index start : Int) :
    Turn LineEdit (Option String) :=
  let screen := screen.setCells (text.toList.map ([·]))
  let status := { screen.status with
    cursorChar := index
    scrollChar := max 0 (index - screen.status.width + 2) }
  match status.refreshError? with
  | some cause => .failed (screen.showStatus status) (.room cause)
  | none => .wait (screen.showStatus status) ⟨index, start, .insert⟩

/-- Takes the text out of the status bar at the end. -/
def leave (screen : Screen) : Screen :=
  screen.draw [screen.status.clearLine 0, .refresh .status]

/-- What a key does. -/
def step : Turn.Stepper LineEdit (Option String) := fun screen e k =>
  if k = .right then
    if e.index < screen.cells.length then
      .wait (screen.showStatus screen.status.cursorRight)
        { e with index := e.index + 1 }
    else .wait screen e
  else if k = .left then
    if e.start < e.index then
      .wait (screen.showStatus screen.status.cursorLeft)
        { e with index := e.index - 1 }
    else .wait screen e
  else if k ∈ Keystroke.backspaces then
    if e.start < e.index then
      match Text.eraseAt screen.cells (e.index - 1) with
      | .error cause => .failed screen (.edit cause)
      | .ok cells =>
        let screen := screen.setCells cells
        .wait (screen.showStatus screen.status.cursorLeft)
          { e with index := e.index - 1 }
    else .wait screen e
  else if k = .delete then
    if e.index < screen.cells.length then
      match Text.eraseAt screen.cells e.index with
      | .error cause => .failed screen (.edit cause)
      | .ok cells =>
        let screen := screen.setCells cells
        .wait (screen.showStatus screen.status) e
    else .wait screen e
  else if k = .insert then .wait screen { e with mode := e.mode.toggle }
  else if k = .escape then .done (leave screen) none
  else if k = .enter then
    .done (leave screen) (some screen.editText)
  else
    match k with
    | .char c =>
      if Text.isPrintable c then
        match screen.type e.index e.mode [c] with
        | .error cause => .failed screen (.edit cause)
        | .ok screen => .wait screen { e with index := e.index + 1 }
      else .wait screen e
    | .named _ => .wait screen e

end LineEdit

end Deduction.Console
