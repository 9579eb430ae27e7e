/-
What the console program and a terminal say to each other: keystrokes
one way, drawing calls the other.

The program never draws by itself. It says which calls are to be made,
in order, and an outer layer makes them; the list is all there is to
know about what the user sees.
-/
namespace Deduction.Console

-- =============================================================== input

/-- A key as the terminal reports it: a character, or a key that has a
name only. -/
inductive Keystroke where
  | char (c : Char)
  | named (name : String)
  deriving DecidableEq, Repr

namespace Keystroke

/-- The key of a report. -/
def ofString (s : String) : Keystroke :=
  match s.toList with
  | [c] => .char c
  | _ => .named s

/-- The report of a key. -/
def toString : Keystroke → String
  | .char c => String.singleton c
  | .named name => name

def enter : Keystroke := .char '\n'
def escape : Keystroke := .char '\x1b'
def left : Keystroke := .named "KEY_LEFT"
def right : Keystroke := .named "KEY_RIGHT"
def up : Keystroke := .named "KEY_UP"
def down : Keystroke := .named "KEY_DOWN"
def delete : Keystroke := .named "KEY_DC"
def insert : Keystroke := .named "KEY_IC"

/-- The keys that erase the character on the left; terminals differ. -/
def backspaces : List Keystroke :=
  [.named "KEY_BACKSPACE", .char '\x7f', .char '\x08']

end Keystroke

-- ============================================================== output

/-- The windows of the screen. -/
inductive Window where
  | goal
  | proof
  | status
  deriving DecidableEq, Repr

/-- The signs that borders are drawn with. -/
inductive Glyph where
  | vertical
  | horizontal
  | upperLeft
  | upperRight
  | lowerLeft
  | lowerRight
  | leftTee
  | rightTee
  deriving DecidableEq, Repr

/-- How text is shown. -/
inductive Shade where
  | normal
  | reverse
  deriving DecidableEq, Repr

/-- A call to the terminal. -/
inductive Call where
  /-- Whether typed keys appear by themselves. -/
  | echo (on : Bool)
  /-- Whether keys arrive one by one. -/
  | cbreak (on : Bool)
  /-- Whether special keys arrive by name. -/
  | keypad (on : Bool)
  /-- The terminal is given back. -/
  | close
  | newWindow (w : Window) (height width y x : Int)
  /-- Sides (left, right, top, bottom), then corners. -/
  | border (w : Window) (glyphs : List Glyph)
  | write (w : Window) (y x : Int) (text : List Char) (shade : Option Shade)
  | move (w : Window) (y x : Int)
  | refresh (w : Window)
  /-- A key was read. -/
  | key (k : Keystroke)
  deriving DecidableEq, Repr

end Deduction.Console
