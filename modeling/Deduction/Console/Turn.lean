/-
Machines that take one key at a time.

Everything that waits for keys is a machine: a state, and a step that
says what a key does to it. A step may draw, report to the log, and then
wait for the next key, finish with a result, or fail. Running a machine
on a list of keys is a recursion on that list, so every place where a
key is awaited is a state that can be named.
-/
import Deduction.Console.Screen
import Deduction.Formula.Read

namespace Deduction.Console

/-- What can go wrong while keys are worked on. -/
inductive Fault where
  /-- A goal holds a numeral that cannot be read. -/
  | unreadable (cause : ReadError)
  /-- A reply made of digits is no number. -/
  | reply (cause : Numeral.Error)
  /-- The text being typed cannot be changed at a position. -/
  | edit (cause : Text.EditError)
  /-- The screen is too wide, or too narrow, to be drawn. -/
  | room (cause : Text.RoomError)
  /-- The proof cannot be shown. -/
  | proof (cause : Formula.Obstacle)
  /-- The selected line belongs to no node. -/
  | selection
  /-- The goal to start with is not a text. -/
  | notText
  /-- The goal to start with is an array, which is no line to draw. -/
  | notALine
  deriving DecidableEq, Repr

/-- The wording of a fault. -/
def Fault.message : Fault → String
  | .unreadable cause => cause.message
  | .reply cause => cause.message
  | .edit cause => cause.message
  | .room cause => cause.message
  | .proof .tooDeep => "Formula too deeply nested"
  | .proof .atom => "text expected"
  | .proof .numeral => Numeral.Error.unwritable.message
  | .selection => "no such line"
  | .notText => "goal expected"
  | .notALine => "line expected"

/-- What comes after a step. -/
inductive Next (σ ω : Type) where
  | wait (state : σ)
  | done (result : ω)
  | failed (cause : Fault)
  deriving Repr

/-- The outcome of a step: the screen after it, the records logged during
it, and what comes next. -/
structure Turn (σ ω : Type) where
  screen : Screen
  log : List Log.Record
  next : Next σ ω
  deriving Repr

namespace Turn

variable {σ τ ω : Type}

/-- Waits for a key in the given state. -/
def wait (screen : Screen) (state : σ) : Turn σ ω :=
  ⟨screen, [], .wait state⟩

/-- Finishes with a result. -/
def done (screen : Screen) (result : ω) : Turn σ ω :=
  ⟨screen, [], .done result⟩

/-- Fails. -/
def failed (screen : Screen) (cause : Fault) : Turn σ ω :=
  ⟨screen, [], .failed cause⟩

/-- The same turn after some records. -/
def logging (turn : Turn σ ω) (records : List Log.Record) : Turn σ ω :=
  { turn with log := records ++ turn.log }

/-- A step of a machine. -/
abbrev Stepper (σ ω : Type) := Screen → σ → Keystroke → Turn σ ω

/-- Feeds keys to a machine until it finishes, fails or has read them
all. The log grows at the end; the keys not read are returned. -/
def run (step : Stepper σ ω) :
    Turn σ ω → List Keystroke → Turn σ ω × List Keystroke
  | ⟨screen, log, .wait state⟩, k :: keys =>
    run step ((step (screen.press k) state k).logging log) keys
  | turn, keys => (turn, keys)

end Turn

-- ============================================================= waiting

/-- The machine that waits for one key, and ignores all others. -/
def waitFor (key : Keystroke) : Turn.Stepper Unit Unit :=
  fun screen _ k => if k = key then .done screen () else .wait screen ()

/-- The machine behind a message that has to be answered with ENTER. The
message is taken away at the end. -/
def waitEnter : Turn.Stepper Unit Unit :=
  fun screen _ k =>
    if k = .enter then .done (screen.say "") () else .wait screen ()

end Deduction.Console
