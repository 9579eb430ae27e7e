/-
The console program.

A session holds the goal, the proof tree and the paths of the lines on
the screen, and is always in one phase: waiting for a command, for a
yes or no, for ENTER, or inside one of the prompts. Keys are the only
input; what each one does in each phase is `Session.step`.

The selected line of the proof window chooses the node that a command
acts on. After most commands the screen is drawn anew; a command that
could not even start leaves it as it is.
-/
import Deduction.Console.Prompt
import Deduction.Proof.View

namespace Deduction.Console

-- ============================================================ commands

/-- The rules that act on a hypothesis, without its number. -/
inductive HypothesisRule where
  | assumption
  | andElim
  | orElim
  deriving DecidableEq, Repr

/-- The rule with a number. -/
def HypothesisRule.withIndex (index : Value) : HypothesisRule → Rule
  | .assumption => .assumption index
  | .andElim => .andElim index
  | .orElim => .orElim index

/-- The name of the rule. -/
def HypothesisRule.name (r : HypothesisRule) : String :=
  (r.withIndex .null).name

/-- The commands. -/
inductive Command where
  | quit
  | edit
  | goalRule (rule : Rule)
  | hypothesisRule (rule : HypothesisRule)
  | undo
  | down
  | up
  | other
  deriving Repr

/-- The keys of the commands. -/
def Command.ofKey : Keystroke → Command
  | .char '\x1b' => .quit
  | .char 'q' => .quit
  | .char 'e' => .edit
  | .char 'i' => .goalRule .implIntro
  | .char 'a' => .goalRule .andIntro
  | .char '1' => .goalRule .orIntro1
  | .char '2' => .goalRule .orIntro2
  | .char 'h' => .hypothesisRule .assumption
  | .char 'l' => .hypothesisRule .andElim
  | .char 'o' => .hypothesisRule .orElim
  | .char 'u' => .undo
  | .named "KEY_DOWN" => .down
  | .named "KEY_UP" => .up
  | _ => .other

-- ============================================================= session

/-- What the session is waiting for. -/
inductive Phase where
  | command
  /-- Whether the program is to be left. -/
  | leaving
  /-- ENTER after a message; then the screen may have to be drawn. -/
  | notice (redraws : Bool)
  | goal (p : GoalPrompt)
  /-- The number of the hypothesis that a rule at a path acts on. -/
  | number (rule : HypothesisRule) (path : Path) (p : NumberPrompt)
  deriving DecidableEq, Repr

/-- The state of the console program. -/
structure Session where
  goalText : String
  /-- The proof, unless the goal could not be read. -/
  root : Option (ProofTree Atom)
  /-- The paths of the nodes on the screen, line by line. -/
  paths : List Path
  phase : Phase
  deriving Repr

namespace Session

/-- The program ends without a result. -/
abbrev Turn := Console.Turn Session Unit

/-- The help line. -/
def help : String := "e edit, i a 1 2 h l o rules, u undo, q quit"

/-- The question before the program is left. -/
def leaveQuestion : String := "Exit (y/n): "

/-- The machine behind that question: whether the next key says yes. -/
def leave : Turn.Stepper Unit Bool := fun screen _ k =>
  .done (screen.say "") (k = .char 'y' || k = .char 'Y')

-- ============================================================= drawing

/-- Draws goal and proof: the screen and the paths of its lines. -/
def redraw {α : Type} [ToString α] (screen : Screen) (goalText : String) :
    Option (ProofTree α) → Screen × List Path
  | none => ((screen.showGoal goalText).showProof ["unable to parse goal"], [])
  | some root =>
    let lines := root.lines ProofTree.defaultIndent
    ((screen.showGoal goalText).showProof (lines.map (·.2)), lines.map (·.1))

/-- Draws goal and proof, as far as the screen and the depth of the tree
allow. The goal, which is only a text, comes first; where it can be drawn
the window of the proof can be drawn too. -/
def redrawWithin {α : Type} [ToString α]
    (stops : α → Option Formula.Obstacle) (limit : Nat) (screen : Screen)
    (goalText : String) (root : Option (ProofTree α)) :
    Screen × Except Fault (List Path) :=
  let shown := screen.showGoal goalText
  match shown.goal.refreshError?, root.bind (ProofTree.obstacle? stops limit) with
  | some cause, _ => (shown, .error (.room cause))
  | none, some found => (shown, .error (.proof found))
  | none, none =>
    let (screen, paths) := redraw screen goalText root
    (screen, .ok paths)

/-- Draws everything and waits in the given phase. -/
def present (screen : Screen) (s : Session) (phase : Phase) : Turn :=
  let (screen, paths) := redraw screen s.goalText s.root
  .wait screen { s with paths, phase }

/-- Draws everything and waits for a command. -/
def resume (screen : Screen) (s : Session) : Turn :=
  present screen s .command

/-- Shows a message and waits for ENTER. -/
def notify (screen : Screen) (s : Session) (message : String)
    (redraws : Bool) : Turn :=
  .wait (screen.ask message) { s with phase := .notice redraws }

-- =============================================================== steps

/-- The node on the selected line, with its path. There is none if there
is no proof; a line without a node is a fault. -/
def selected (screen : Screen) (s : Session) :
    Except Fault (Option (Path × ProofTree Atom × ProofTree Atom)) :=
  match s.root with
  | none => .ok none
  | some root =>
    match s.paths[screen.proof.cursorLine.toNat]? with
    | none => .error .selection
    | some path =>
      match root.get? path with
      | none => .error .selection
      | some found => .ok (some (path, root, found))

/-- Applies a rule to a node of the proof. -/
def applyRule (screen : Screen) (s : Session) (path : Path)
    (root found : ProofTree Atom) (rule : Rule) : Turn :=
  match found.accept? rule with
  | some new =>
    let root := root.replace path new
    let s := { s with root := some root }
    let log : List Log.Record :=
      [⟨.console, .info, "applied " ++ rule.text ++ " to " ++ found.state.text⟩]
    if root.proved then
      let (screen, paths) := redraw screen s.goalText s.root
      (notify screen { s with paths } "All goals proved!" true).logging log
    else (resume screen s).logging log
  | none =>
    (notify screen s ("Rule " ++ rule.text ++ " does not apply.") true).logging
      (found.acceptLog rule)

/-- Takes back what is below a node of the proof. -/
def undo (screen : Screen) (s : Session) (path : Path)
    (root found : ProofTree Atom) : Turn :=
  match found.undo? with
  | some new =>
    (resume screen { s with root := some (root.replace path new) }).logging
      [⟨.console, .info, "undo at " ++ found.state.text⟩]
  | none => resume screen s

/-- Goes on with what the goal prompt did. -/
def afterGoal (s : Session)
    (turn : Console.Turn GoalPrompt GoalPrompt.Answer) : Turn :=
  let screen := turn.screen
  let next : Turn := match turn.next with
    | .wait p => .wait screen { s with phase := .goal p }
    | .failed cause => .failed screen cause
    | .done (none, _) => resume screen s
    | .done (some goal, text) =>
      let screen := { screen with proof := { screen.proof with cursorLine := 0 } }
      (resume screen { s with goalText := text, root := some (.ofGoal goal) }).logging
        [⟨.console, .info, "new goal " ++ goal.text⟩]
  next.logging turn.log

/-- Goes on with what the number prompt did. -/
def afterNumber (s : Session) (rule : HypothesisRule) (path : Path)
    (turn : Console.Turn NumberPrompt (Option Int)) : Turn :=
  let screen := turn.screen
  let next : Turn := match turn.next with
    | .wait p => .wait screen { s with phase := .number rule path p }
    | .failed cause => .failed screen cause
    | .done none => .wait screen { s with phase := .command }
    | .done (some n) =>
      match s.root.bind fun root => (root.get? path).map (root, ·) with
      | some (root, found) =>
        applyRule screen s path root found (rule.withIndex (.int n))
      | none => .failed screen .selection
  next.logging turn.log

/-- The question for the number of a hypothesis. -/
def numberPrompt (rule : HypothesisRule) (count : Nat) : String :=
  rule.name ++ " hypothesis (0-" ++ toString ((count : Int) - 1) ++ "): "

/-- Obeys a command, given the selected node. -/
def obey (limit : Nat) (screen : Screen) (s : Session)
    (node? : Option (Path × ProofTree Atom × ProofTree Atom)) : Command → Turn
  | .quit => .wait (screen.say leaveQuestion) { s with phase := .leaving }
  | .edit => afterGoal s (GoalPrompt.begin limit screen s.goalText)
  | .goalRule rule =>
    match node? with
    | none => notify screen s "No goal." false
    | some (path, root, found) => applyRule screen s path root found rule
  | .hypothesisRule rule =>
    match node? with
    | none => notify screen s "No goal." false
    | some (path, _, found) =>
      let count := found.state.hypothesisCount
      if count = 0 then notify screen s "No hypotheses." false
      else
        afterNumber s rule path
          (NumberPrompt.begin screen (numberPrompt rule count))
  | .undo =>
    match node? with
    | none => resume screen s
    | some (path, root, found) => undo screen s path root found
  | .down => resume { screen with proof := screen.proof.cursorDown } s
  | .up => resume { screen with proof := screen.proof.cursorUp } s
  | .other => resume screen s

/-- What a key does. -/
def step (limit : Nat) : Turn.Stepper Session Unit := fun screen s k =>
  match s.phase with
  | .command =>
    match s.selected screen with
    | .error cause => .failed screen cause
    | .ok node? => obey limit screen s node? (.ofKey k)
  | .leaving =>
    let turn := leave screen () k
    match turn.next with
    | .done true => .done turn.screen.exit ()
    | _ => resume turn.screen s
  | .notice redraws =>
    if k = .enter then
      let screen := screen.say ""
      if redraws then resume screen s
      else .wait screen { s with phase := .command }
    else .wait screen s
  | .goal p => afterGoal s (GoalPrompt.step limit screen p k)
  | .number rule path p => afterNumber s rule path (NumberPrompt.step screen p k)

-- ================================================================ whole

/-- Starts the program with a goal on a screen of the given size. -/
def start (limit : Nat) (lines cols : Int) (goalText : String) : Turn :=
  let screen := Screen.start lines cols
  let log := Goal.readLog limit (.ofText goalText)
  let go := fun (root : Option (ProofTree Atom)) =>
    match redrawWithin Atom.obstacle? limit screen goalText root with
    | (screen, .error cause) => (Turn.failed screen cause).logging log
    | (screen, .ok paths) =>
      (Turn.wait (screen.say help) ⟨goalText, root, paths, .command⟩).logging log
  match Goal.read limit goalText with
  | .ok goal => go (some (.ofGoal goal))
  | .error e =>
    if e.isReported then go none else .failed screen (.unreadable e)

/-- Starts the program with a plain value for a goal. Only a text can be
drawn; an empty array or object is still read before that shows. -/
def startWith (limit : Nat) (lines cols : Int) (goal : Value) : Turn :=
  match goal with
  | .text goalText => start limit lines cols goalText
  | _ =>
    let screen := Screen.start lines cols
    match Source.ofValue? goal, goal with
    | none, _ => .failed screen .notText
    | some source, .array _ =>
      (Turn.failed screen .notALine).logging (Goal.readLog limit source)
    | some source, _ =>
      (Turn.failed screen .notText).logging (Goal.readLog limit source)

/-- Runs the program on a list of keys: the turn it ends with, and the
keys it did not read. -/
def run (limit : Nat) (lines cols : Int) (goal : Value)
    (keys : List Keystroke) : Turn × List Keystroke :=
  Console.Turn.run (step limit) (startWith limit lines cols goal) keys

end Session

end Deduction.Console
