/-
Proof trees.

A node of a proof tree holds a state and, once a rule has been accepted
at it, that rule and a child for each state the rule left over. Nodes
are named by paths, the positions of the children passed on the way from
the root. A step applies a rule at a node, which replaces whatever was
below it, or takes back what is below it.
-/
import Deduction.Sequent.Refine

namespace Deduction

/-- A tree of proof states. -/
inductive ProofTree (α : Type) where
  | node (state : State α) (rule : Option Rule) (children : List (ProofTree α))
  deriving Repr

/-- A way down from the root: the positions of the children passed. -/
abbrev Path := List Nat

/-- What can be done at a node. -/
inductive Step where
  | apply (rule : Rule)
  | undo
  deriving Repr

namespace ProofTree

variable {α : Type}

/-- A node at which nothing has been done. -/
def leaf (state : State α) : ProofTree α := .node state none []

/-- The tree in which a proof of the goal begins. -/
def ofGoal (goal : Formula α) : ProofTree α := leaf (.ofGoal goal)

/-- The state of the root. -/
def state : ProofTree α → State α
  | .node state _ _ => state

/-- The rule accepted at the root. -/
def rule? : ProofTree α → Option Rule
  | .node _ rule _ => rule

/-- The children of the root. -/
def children : ProofTree α → List (ProofTree α)
  | .node _ _ children => children

-- =============================================================== steps

/-- Applies a rule at the root. A closed branch accepts no rule. -/
def accept? [BEq α] (t : ProofTree α) (rule : Rule) : Option (ProofTree α) :=
  match t.state with
  | .closed => none
  | .table s =>
    match s.refine rule with
    | [] => none
    | states => some (.node t.state (some rule) (states.map leaf))

/-- The log of applying a rule at the root. A closed branch refuses
without a word. -/
def acceptLog [BEq α] [ToString α] (t : ProofTree α) (rule : Rule) :
    List Log.Record :=
  if t.state.isClosed then [] else t.state.refineLog rule

/-- Takes back what is below the root, if anything is. -/
def undo? (t : ProofTree α) : Option (ProofTree α) :=
  if t.children.isEmpty then none else some (leaf t.state)

/-- Does a step at the root; nothing if it is refused. -/
def step? [BEq α] (t : ProofTree α) : Step → Option (ProofTree α)
  | .apply rule => t.accept? rule
  | .undo => t.undo?

-- =============================================================== paths

/-- The node at a path. -/
def get? : ProofTree α → Path → Option (ProofTree α)
  | t, [] => some t
  | t, i :: path =>
    match t.children[i]? with
    | some child => child.get? path
    | none => none

/-- The tree with the node at a path replaced. -/
def replace : ProofTree α → Path → ProofTree α → ProofTree α
  | _, [], new => new
  | .node state rule children, i :: path, new =>
    .node state rule (children.modify i fun child => child.replace path new)

/-- The path that a sequence of plain values names in the tree. Each
value has to number a child of the node reached so far. -/
def locate? : ProofTree α → List Value → Option Path
  | _, [] => some []
  | t, v :: values =>
    match v.position? with
    | none => none
    | some i =>
      match t.children[i]? with
      | none => none
      | some child => (child.locate? values).map (i :: ·)

/-- Why a plain value names no node. -/
inductive PathError where
  /-- The value has no elements to follow. -/
  | notASequence
  /-- Some element numbers no child. -/
  | missing (elements : List Value)
  deriving Repr

/-- The wording of an error. -/
def PathError.message : PathError → String
  | .notASequence => "not a path"
  | .missing elements => Value.sequenceText elements

/-- The path that a plain value names in the tree. -/
def find (t : ProofTree α) (path : Value) : Except PathError Path :=
  match path.elements? with
  | none => .error .notASequence
  | some elements =>
    match t.locate? elements with
    | some found => .ok found
    | none => .error (.missing elements)

/-- Does a step at a path: whether it was accepted, and the tree after
it. There is no answer if the path leads nowhere. -/
def stepAt? [BEq α] (t : ProofTree α) (path : Path) (s : Step) :
    Option (Bool × ProofTree α) :=
  (t.get? path).map fun found =>
    match found.step? s with
    | some new => (true, t.replace path new)
    | none => (false, t)

/-- Applies whatever is handed over as a rule at a path. A closed branch
refuses even what is no rule. -/
def moveAt? [BEq α] (limit : Nat) (t : ProofTree α) (path : Path) :
    Move → Option (Except MoveError (Bool × ProofTree α))
  | .rule r =>
    match t.get? path with
    | none => none
    | some found =>
      if found.state.judges limit r then (t.stepAt? path (.apply r)).map .ok
      else some (.error .tooDeep)
  | .foreign v => (t.get? path).map fun found =>
    if found.state.isClosed then .ok (false, t) else .error (.notARule v)

-- ============================================================ progress

mutual

/-- Whether every branch is closed. -/
def proved : ProofTree α → Bool
  | .node .closed _ _ => true
  | .node (.table _) _ children => !children.isEmpty && allProved children

/-- Whether every tree of a list is proved. -/
def allProved : List (ProofTree α) → Bool
  | [] => true
  | t :: ts => t.proved && allProved ts

end

/-- Whether the root is a sequent at which nothing has been done. -/
def isOpenGoal (t : ProofTree α) : Bool :=
  t.children.isEmpty && !t.state.isClosed

mutual

/-- The nodes of the tree with their paths, each before its children and
the children in order. The tree itself stands at the given path. -/
def walkFrom (path : Path) : ProofTree α → List (Path × ProofTree α)
  | .node state rule children =>
    (path, .node state rule children) :: walkChildren path 0 children

/-- The nodes of the children from the given position on. -/
def walkChildren (path : Path) (i : Nat) :
    List (ProofTree α) → List (Path × ProofTree α)
  | [] => []
  | t :: ts => walkFrom (path ++ [i]) t ++ walkChildren path (i + 1) ts

end

/-- The nodes of the tree with their paths from the root. -/
def walk (t : ProofTree α) : List (Path × ProofTree α) :=
  t.walkFrom []

/-- A node where it stands: how many steps below the root, and at which
path. -/
structure Occurrence (α : Type) where
  depth : Nat
  path : Path
  node : ProofTree α
  deriving Repr

mutual

/-- The nodes of the tree where they stand, in the order of the walk. The
tree itself stands at the given depth and path. -/
def occurrencesFrom (depth : Nat) (path : Path) :
    ProofTree α → List (Occurrence α)
  | .node state rule children =>
    ⟨depth, path, .node state rule children⟩
      :: occurrencesBelow (depth + 1) path 0 children

/-- The nodes of the children from the given position on, all of which
stand at the given depth. -/
def occurrencesBelow (depth : Nat) (path : Path) (i : Nat) :
    List (ProofTree α) → List (Occurrence α)
  | [] => []
  | t :: ts =>
    occurrencesFrom depth (path ++ [i]) t
      ++ occurrencesBelow depth path (i + 1) ts

end

/-- The nodes of the tree where they stand. -/
def occurrences (t : ProofTree α) : List (Occurrence α) :=
  t.occurrencesFrom 0 []

/-- The sequents that are still to be shown, with their paths. -/
def openGoals (t : ProofTree α) : List (Path × ProofTree α) :=
  t.walk.filter fun entry => entry.2.isOpenGoal

end ProofTree

end Deduction
