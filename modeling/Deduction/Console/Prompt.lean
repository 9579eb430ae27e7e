/-
Questions answered in the status bar: a new goal, and the number of a
hypothesis. Each is the line editor, followed by a message when the
answer is of no use.
-/
import Deduction.Console.LineEdit

namespace Deduction.Console

-- ================================================================ goals

/-- Asking for a goal. -/
inductive GoalPrompt where
  /-- The goal is being typed; `old` is the text at the start. -/
  | editing (old : String) (e : LineEdit)
  /-- The text was refused, and the reason is on the screen. -/
  | refused (text : String)
  deriving DecidableEq, Repr

namespace GoalPrompt

/-- The goal typed, if it can be read, and its text. -/
abbrev Answer := Option Goal × String

/-- Goes on with what the line editor did. -/
def afterEdit (limit : Nat) (old : String)
    (turn : Turn LineEdit (Option String)) : Turn GoalPrompt Answer :=
  match turn.next with
  | .wait e => .wait turn.screen (.editing old e)
  | .failed cause => .failed turn.screen cause
  | .done none => .done turn.screen (none, old)
  | .done (some text) =>
    let log := Goal.readLog limit (.ofText text)
    match Goal.read limit text with
    | .ok goal => (Turn.done turn.screen (some goal, text)).logging log
    | .error e =>
      if e.isReported then
        (Turn.wait
          (turn.screen.ask ("Unable to parse goal: " ++ e.message ++ "."))
          (.refused text)).logging log
      else .failed turn.screen (.unreadable e)

/-- Asks for a goal, with a text to start from. -/
def begin (limit : Nat) (screen : Screen) (text : String) :
    Turn GoalPrompt Answer :=
  afterEdit limit text (LineEdit.begin screen text text.length 0)

/-- What a key does. -/
def step (limit : Nat) : Turn.Stepper GoalPrompt Answer := fun screen p k =>
  match p with
  | .editing old e => afterEdit limit old (LineEdit.step screen e k)
  | .refused text =>
    if k = .enter then .done (screen.say "") (none, text)
    else .wait screen (.refused text)

end GoalPrompt

-- ============================================================== numbers

/-- Asking for the number of a hypothesis. -/
inductive NumberPrompt where
  /-- The number is being typed after a prompt of the given length. -/
  | editing (length : Nat) (e : LineEdit)
  /-- The reply was no number, and that is on the screen. -/
  | refused
  deriving DecidableEq, Repr

namespace NumberPrompt

/-- What was typed after the prompt, without the blanks around it. -/
def reply (length : Nat) (text : String) : List Char :=
  Text.trim (text.toList.drop length)

/-- Whether a reply is made of digits. -/
def isDigits (cs : List Char) : Bool :=
  !cs.isEmpty && cs.all Text.isDigit

/-- Goes on with what the line editor did. -/
def afterEdit (length : Nat) (turn : Turn LineEdit (Option String)) :
    Turn NumberPrompt (Option Int) :=
  match turn.next with
  | .wait e => .wait turn.screen (.editing length e)
  | .failed cause => .failed turn.screen cause
  | .done none => .done turn.screen none
  | .done (some text) =>
    let cs := reply length text
    if isDigits cs then
      match Numeral.read (String.ofList cs) with
      | .ok n => .done turn.screen (some n)
      | .error cause => .failed turn.screen (.reply cause)
    else .wait (turn.screen.ask "Hypothesis number expected.") .refused

/-- Asks for a number, with a prompt. -/
def begin (screen : Screen) (prompt : String) :
    Turn NumberPrompt (Option Int) :=
  let length := prompt.length
  afterEdit length (LineEdit.begin screen prompt length length)

/-- What a key does. -/
def step : Turn.Stepper NumberPrompt (Option Int) := fun screen p k =>
  match p with
  | .editing length e => afterEdit length (LineEdit.step screen e k)
  | .refused =>
    if k = .enter then .done (screen.say "") none else .wait screen .refused

end NumberPrompt

end Deduction.Console
