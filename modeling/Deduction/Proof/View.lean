/-
Two views of a proof tree: indented lines for a screen, and a nested
outline for a page. Both list the nodes in the same order and give the
same texts.
-/
import Deduction.Proof
import Deduction.Text.Slice

namespace Deduction

variable {α : Type}

namespace ProofTree

-- =============================================================== lines

/-- The root as a line of text: its state, and the rule accepted at it. -/
def text [ToString α] (t : ProofTree α) : String :=
  match t.rule? with
  | some rule => t.state.text ++ " [" ++ rule.text ++ "]"
  | none => t.state.text

/-- A line for each node, indented by its depth, with its path. -/
def lines [ToString α] (t : ProofTree α) (indent : Int) : List (Path × String) :=
  t.walk.map fun (path, found) =>
    (path, String.ofList (Text.spaces (indent * path.length)) ++ found.text)

/-- Why the lines cannot be indented: the first error on the way down. -/
def linesError? (t : ProofTree α) (indent : Int) : Option Text.RoomError :=
  t.walk.findSome? fun (path, _) => Text.blankError? (indent * path.length)

/-- What stops a walk of limited depth through all states of the tree, in
the order of the lines. -/
def obstacle? (stops : α → Option Formula.Obstacle) (limit : Nat)
    (t : ProofTree α) : Option Formula.Obstacle :=
  t.walk.findSome? fun (_, found) => found.state.obstacle? stops limit

/-- How far a line is indented for each step away from the root. -/
def defaultIndent : Int := 2

end ProofTree

-- ============================================================= outline

/-- A proof tree as it is sent to a page. -/
inductive Outline where
  /-- `sequent` has the texts of the hypotheses and the goal, and is
  missing on a closed branch. -/
  | node (path : Path) (rule : Option String)
      (sequent : Option (List String × String)) (children : List Outline)
  deriving Repr

namespace ProofTree

/-- The texts of a sequent, one by one. -/
def sequentTexts [ToString α] : State α → Option (List String × String)
  | .closed => none
  | .table s => some (s.context.map Formula.text, s.goal.text)

mutual

/-- The outline of a tree that stands at the given path. -/
def outlineFrom [ToString α] (path : Path) : ProofTree α → Outline
  | .node state rule children =>
    .node path (rule.map Rule.text) (sequentTexts state)
      (outlineChildren path 0 children)

/-- The outlines of the children from the given position on. -/
def outlineChildren [ToString α] (path : Path) (i : Nat) :
    List (ProofTree α) → List Outline
  | [] => []
  | t :: ts => outlineFrom (path ++ [i]) t :: outlineChildren path (i + 1) ts

end

/-- The outline of the whole tree. -/
def outline [ToString α] (t : ProofTree α) : Outline :=
  t.outlineFrom []

end ProofTree

namespace Outline

/-- A path as a plain value. -/
def pathValue (path : Path) : Value :=
  .array (path.map fun i => .int (i : Nat))

mutual

/-- The outline as a plain value. The hypotheses and the goal are only
there on an open branch. -/
def toValue : Outline → Value
  | .node path rule sequent children =>
    let common :=
      [("path", pathValue path), ("closed", .bool sequent.isNone),
       ("rule", match rule with
         | some text => .text text
         | none => .null),
       ("children", .array (toValues children))]
    .object <| match sequent with
      | some (context, goal) =>
        common ++ [("context", .array (context.map .text)), ("goal", .text goal)]
      | none => common

/-- A list of outlines as plain values. -/
def toValues : List Outline → List Value
  | [] => []
  | o :: os => toValue o :: toValues os

end

end Outline

end Deduction
