/-
Drawing calls as control sequences for a terminal.

The calls name places inside windows; a terminal only knows rows and
columns of the whole screen. A layout remembers where the windows are.
-/
import Deduction.Console.Drawing

namespace Deduction.Console

/-- Where a window is. -/
structure Frame where
  height : Int
  width : Int
  y : Int
  x : Int

/-- The windows made so far, the latest first. -/
abbrev Layout := List (Window × Frame)

namespace Ansi

/-- Moves the cursor to a row and a column, counted from zero. -/
def goTo (y x : Int) : String :=
  "\x1b[" ++ toString (y + 1) ++ ";" ++ toString (x + 1) ++ "H"

/-- The sign for a part of a border. -/
def sign : Glyph → Char
  | .vertical => '│'
  | .horizontal => '─'
  | .upperLeft => '┌'
  | .upperRight => '┐'
  | .lowerLeft => '└'
  | .lowerRight => '┘'
  | .leftTee => '├'
  | .rightTee => '┤'

/-- The place of a window. -/
def frame (layout : Layout) (w : Window) : Frame :=
  (layout.lookup w).getD ⟨0, 0, 0, 0⟩

/-- A row of a border: its ends, with the same sign all the way between. -/
def edge (f : Frame) (row : Int) (first middle last : Glyph) : String :=
  goTo (f.y + row) f.x ++
    String.ofList (sign first ::
      List.replicate (f.width - 2).toNat (sign middle) ++ [sign last])

/-- A border around a window. -/
def border (f : Frame) : List Glyph → String
  | [left, right, top, bottom, topLeft, topRight, bottomLeft, bottomRight] =>
    let rows := (List.range (f.height - 2).toNat).map fun (i : Nat) =>
      let row := f.y + i + 1
      goTo row f.x ++ String.singleton (sign left) ++
        goTo row (f.x + f.width - 1) ++ String.singleton (sign right)
    edge f 0 topLeft top topRight ++ String.join rows ++
      edge f (f.height - 1) bottomLeft bottom bottomRight
  | _ => ""

/-- What a call sends to the terminal, and the layout after it. -/
def render (layout : Layout) : Call → String × Layout
  | .newWindow w height width y x => ("", (w, ⟨height, width, y, x⟩) :: layout)
  | .border w glyphs => (border (frame layout w) glyphs, layout)
  | .write w y x text shade =>
    let f := frame layout w
    let body := goTo (f.y + y) (f.x + x) ++ String.ofList text
    if shade = some .reverse then ("\x1b[7m" ++ body ++ "\x1b[0m", layout)
    else (body, layout)
  | .move w y x =>
    let f := frame layout w
    (goTo (f.y + y) (f.x + x), layout)
  | .close => ("\x1b[2J" ++ goTo 0 0, layout)
  | .echo _ | .cbreak _ | .keypad _ | .refresh _ | .key _ => ("", layout)

/-- What a list of calls sends to the terminal. -/
def renderAll (layout : Layout) : List Call → String × Layout
  | [] => ("", layout)
  | call :: calls =>
    let (text, layout) := render layout call
    let (more, layout) := renderAll layout calls
    (text ++ more, layout)

/-- The key behind what the terminal sends for it. -/
def keystroke (sent : String) : Keystroke :=
  match sent with
  | "\x1b[A" => .up
  | "\x1b[B" => .down
  | "\x1b[C" => .right
  | "\x1b[D" => .left
  | "\x1b[2~" => .insert
  | "\x1b[3~" => .delete
  | "\r" => .enter
  | other => .ofString other

end Ansi

end Deduction.Console
