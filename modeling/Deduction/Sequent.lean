/-
Sequents and proof states.

A sequent is a list of hypotheses, numbered from zero, and a goal to be
shown from them. A proof state is a sequent that is still to be shown,
or the mark that a branch is closed.
-/
import Deduction.Formula
import Deduction.Rule

namespace Deduction

/-- Hypotheses and a goal. -/
structure Sequent (α : Type) where
  context : List (Formula α)
  goal : Formula α
  deriving DecidableEq, Repr

/-- A proof state. -/
inductive State (α : Type) where
  | closed
  | table (s : Sequent α)
  deriving DecidableEq, Repr

variable {α : Type}

namespace Sequent

/-- The sequent of a goal without hypotheses. -/
def ofGoal (goal : Formula α) : Sequent α := ⟨[], goal⟩

/-- The hypothesis that a plain value numbers, if there is one. -/
def hypothesis? (s : Sequent α) (index : Value) : Option (Formula α) :=
  index.position?.bind fun i => s.context[i]?

/-- The sequent as a line of text. -/
def text [ToString α] (s : Sequent α) : String :=
  let hypotheses := s.context.mapIdx fun i h =>
    "H" ++ toString i ++ ": " ++ h.text
  (if s.context.isEmpty then "" else ", ".intercalate hypotheses ++ " ")
    ++ "|- " ++ s.goal.text

/-- The sequent as it is shown inside something else, given how formulas
are. -/
def quotedWith (formula : Formula α → String) (s : Sequent α) : String :=
  "TableState([" ++ ", ".intercalate (s.context.map formula) ++ "], "
    ++ formula s.goal ++ ")"

/-- Equality of sequents: the same hypotheses in the same order and the
same goal. -/
def same [BEq α] (s t : Sequent α) : Bool :=
  s.context.length == t.context.length
    && (s.context.zip t.context).all (fun (h, k) => h.same k)
    && s.goal.same t.goal

instance [BEq α] : BEq (Sequent α) := ⟨same⟩

end Sequent

namespace State

/-- The state in which a proof of the goal begins. -/
def ofGoal (goal : Formula α) : State α := .table (.ofGoal goal)

/-- Whether the branch is closed. -/
def isClosed : State α → Bool
  | .closed => true
  | .table _ => false

/-- The formulas of a state, in the order in which they are shown. -/
def formulas : State α → List (Formula α)
  | .closed => []
  | .table s => s.context ++ [s.goal]

/-- What stops a walk of limited depth through the formulas of a state,
one after the other. -/
def obstacle? (stops : α → Option Formula.Obstacle) (limit : Nat)
    (state : State α) : Option Formula.Obstacle :=
  state.formulas.findSome? (Formula.obstacle? stops limit)

/-- The number of hypotheses. -/
def hypothesisCount : State α → Nat
  | .closed => 0
  | .table s => s.context.length

/-- The state as a line of text. -/
def text [ToString α] : State α → String
  | .closed => "----"
  | .table s => s.text

/-- The state as it is shown inside something else, given how formulas
are. -/
def quotedWith (formula : Formula α → String) : State α → String
  | .closed => "ClosedState()"
  | .table s => s.quotedWith formula

/-- Equality of states. -/
def same [BEq α] : State α → State α → Bool
  | .closed, .closed => true
  | .table s, .table t => s.same t
  | _, _ => false

instance [BEq α] : BEq (State α) := ⟨same⟩

/-- The dictionary key of a state, given the keys of formulas. -/
def keyWith (formula : Formula α → Option Key) : State α → Option Key
  | .closed => some (.text "----")
  | .table s =>
    match s.context.mapM formula, formula s.goal with
    | some hypotheses, some goal => some (.pair (.sequence hypotheses) goal)
    | _, _ => none

end State

end Deduction
