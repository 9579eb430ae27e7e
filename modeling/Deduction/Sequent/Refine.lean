/-
Applying rules to sequents.

A rule replaces a sequent by the states that remain to be shown: one or
two sequents, or a closed branch. A rule that does not fit the sequent
leaves nothing, and the attempt is logged.
-/
import Deduction.Log
import Deduction.Sequent

namespace Deduction

variable {α : Type}

/-- Why something handed over as a rule is not even tried. -/
inductive MoveError where
  | notARule (v : Value)
  /-- The hypothesis and the goal are too deep to be compared. -/
  | tooDeep
  deriving Repr

/-- The wording of an error. -/
def MoveError.message : MoveError → String
  | .notARule v => "not a rule: " ++ v.quoted
  | .tooDeep => "Formula too deeply nested"

namespace Sequent

/-- The sequent with more hypotheses at the end. -/
def assume (s : Sequent α) (more : List (Formula α)) (goal : Formula α) :
    State α :=
  .table ⟨s.context ++ more, goal⟩

/-- The states that remain to be shown after a rule; none if it does not
apply. -/
def refine [BEq α] (s : Sequent α) : Rule → List (State α)
  | .implIntro =>
    match s.goal with
    | .imp left right => [s.assume [left] right]
    | _ => []
  | .orIntro1 =>
    match s.goal with
    | .or left _ => [s.assume [] left]
    | _ => []
  | .orIntro2 =>
    match s.goal with
    | .or _ right => [s.assume [] right]
    | _ => []
  | .andIntro =>
    match s.goal with
    | .and left right => [s.assume [] left, s.assume [] right]
    | _ => []
  | .andElim index =>
    match s.hypothesis? index with
    | some (.and left right) => [s.assume [left, right] s.goal]
    | _ => []
  | .orElim index =>
    match s.hypothesis? index with
    | some (.or left right) => [s.assume [left] s.goal, s.assume [right] s.goal]
    | _ => []
  | .assumption index =>
    match s.hypothesis? index with
    | some h => if h.same s.goal then [.closed] else []
    | none => []

end Sequent

namespace State

/-- The states that remain after a rule. A closed branch stays as it is,
whatever the rule. -/
def refine [BEq α] : State α → Rule → List (State α)
  | .closed, _ => [.closed]
  | .table s, rule => s.refine rule

/-- The log of applying a rule. -/
def refineLog [BEq α] [ToString α] (state : State α) (rule : Rule) :
    List Log.Record :=
  if (state.refine rule).isEmpty then
    [⟨.rules, .debug,
      rule.text ++ " does not apply to " ++ state.text⟩]
  else []

/-- Whether a rule can be judged by a walk of limited depth. Only an
assumption compares formulas all the way down. -/
def judges [BEq α] (limit : Nat) : State α → Rule → Bool
  | .table s, .assumption index =>
    match s.hypothesis? index with
    | some h => (h.sameWithin? limit s.goal).isSome
    | none => true
  | _, _ => true

/-- Applies whatever is handed over as a rule. On a sequent a value that
is no rule is an error. -/
def move [BEq α] (limit : Nat) : State α → Move →
    Except MoveError (List (State α))
  | state, .rule r =>
    if state.judges limit r then .ok (state.refine r) else .error .tooDeep
  | .closed, .foreign _ => .ok [.closed]
  | .table _, .foreign v => .error (.notARule v)

/-- What stops whoever wants to record that a rule does not apply: the
record shows the rule, and then the state. -/
def refusalObstacle? (stops : α → Option Formula.Obstacle) (limit : Nat)
    (state : State α) (r : Rule) : Option Formula.Obstacle :=
  if r.isShort then state.obstacle? stops limit else some .numeral

/-- The log of applying whatever is handed over. The record of a refusal
may not be possible. -/
def moveLog [BEq α] [ToString α] (stops : α → Option Formula.Obstacle)
    (limit : Nat) (state : State α) :
    Move → Except Formula.Obstacle (List Log.Record)
  | .rule r =>
    match state.refineLog r, state.refusalObstacle? stops limit r with
    | [], _ => .ok []
    | _, some found => .error found
    | records, none => .ok records
  | .foreign _ => .ok []

end State

end Deduction
