/-
Formulas of propositional logic.

A formula is built from atoms with three connectives. The type of atoms
is a parameter: goals that are typed in have variables and constants for
atoms (`Atom`), while formulas handed over by another program may have
leaves of further kinds (`Leaf`). Whatever needs to tell two formulas
apart takes equality of atoms from a `BEq` instance.
-/
import Deduction.Key
import Deduction.Number.Numeral

namespace Deduction

-- ========================================================= connectives

/-- The connectives. -/
inductive Connective where
  | and
  | or
  | imp
  deriving DecidableEq, Repr

/-- How a connective is written. -/
def Connective.symbol : Connective → String
  | .and => "and"
  | .or => "or"
  | .imp => "->"

/-- The strength with which a connective holds on to the operand on its
left. -/
def Connective.leftPower : Connective → Int
  | .and => 10
  | .or => 10
  | .imp => 5

/-- The strength with which a connective holds on to the operand on its
right. It is below the left one only for implication, which for that
reason associates to the right. -/
def Connective.rightPower : Connective → Int
  | .and => 11
  | .or => 11
  | .imp => 4

-- ============================================================ formulas

/-- A formula over a type of atoms. -/
inductive Formula (α : Type) where
  | atom (a : α)
  | binary (op : Connective) (left right : Formula α)
  deriving DecidableEq, Repr

namespace Formula

variable {α β : Type}

/-- Conjunction. -/
@[match_pattern]
abbrev and (left right : Formula α) : Formula α := .binary .and left right

/-- Disjunction. -/
@[match_pattern]
abbrev or (left right : Formula α) : Formula α := .binary .or left right

/-- Implication. -/
@[match_pattern]
abbrev imp (left right : Formula α) : Formula α := .binary .imp left right

/-- The formula as text, given the text of its atoms. There are no
brackets, so only some formulas can be read back. -/
def textWith (leaf : α → String) : Formula α → String
  | atom a => leaf a
  | binary op left right =>
    left.textWith leaf ++ " " ++ op.symbol ++ " " ++ right.textWith leaf

/-- The formula as text. -/
def text [ToString α] (f : Formula α) : String :=
  f.textWith toString

/-- How deep the connectives are nested. -/
def depth : Formula α → Nat
  | atom _ => 0
  | binary _ left right => max left.depth right.depth + 1

/-- Whether a test holds of every atom. -/
def allAtoms (p : α → Bool) : Formula α → Bool
  | atom a => p a
  | binary _ left right => left.allAtoms p && right.allAtoms p

/-- Replaces every atom. -/
def map (f : α → β) : Formula α → Formula β
  | atom a => atom (f a)
  | binary op left right => binary op (left.map f) (right.map f)

/-- Sameness of formulas: the same connectives in the same places over
the same atoms. -/
def same [BEq α] : Formula α → Formula α → Bool
  | atom a, atom b => a == b
  | binary op left right, binary op' left' right' =>
    op == op' && left.same left' && right.same right'
  | _, _ => false

instance [BEq α] : BEq (Formula α) := ⟨same⟩

/-- The dictionary key of a formula, given the keys of its atoms. -/
def keyWith (leaf : α → Option Key) : Formula α → Option Key
  | atom a => leaf a
  | binary op left right =>
    match left.keyWith leaf, right.keyWith leaf with
    | some l, some r => some (.pair (.text op.symbol) (.pair l r))
    | _, _ => none

-- =============================================================== depth

/-- What stops a walk through a formula. -/
inductive Obstacle where
  /-- The connectives are nested deeper than the walk may go. -/
  | tooDeep
  /-- An atom does not have what the walk is after. -/
  | atom
  /-- An atom is a number of too many digits to be written. -/
  | numeral
  deriving DecidableEq, Repr

/-- What stops a walk that takes the operands from left to right, may be
stopped by any atom, and may enter only so many connectives nested in one
another. -/
def obstacle? (stops : α → Option Obstacle) :
    Nat → Formula α → Option Obstacle
  | _, atom a => stops a
  | 0, binary _ _ _ => some .tooDeep
  | limit + 1, binary _ left right =>
    match left.obstacle? stops limit with
    | some found => some found
    | none => right.obstacle? stops limit

/-- Nothing stops the walk just if the formula is not too deep and none of
its atoms stops it. -/
theorem obstacle?_eq_none_iff {stops : α → Option Obstacle} {limit : Nat}
    {f : Formula α} :
    f.obstacle? stops limit = none ↔
      f.depth ≤ limit ∧ f.allAtoms (fun a => (stops a).isNone) = true := by
  induction f generalizing limit with
  | atom a => simp [obstacle?, depth, allAtoms]
  | binary op left right ihl ihr =>
      cases limit with
      | zero => simp [obstacle?, depth]
      | succ limit =>
          have hwalk : (binary op left right).obstacle? stops (limit + 1)
                = none ↔ left.obstacle? stops limit = none
                  ∧ right.obstacle? stops limit = none := by
            rw [obstacle?]
            cases left.obstacle? stops limit <;> simp
          have hdepth : max left.depth right.depth + 1 ≤ limit + 1
              ↔ left.depth ≤ limit ∧ right.depth ≤ limit := by omega
          rw [hwalk, ihl, ihr, depth, allAtoms, Bool.and_eq_true, hdepth]
          exact and_and_and_comm

/-- Sameness found out by a walk of limited depth, which ends at the
first difference. There is no answer if the formulas are still alike
where the walk has to stop. -/
def sameWithin? [BEq α] : Nat → Formula α → Formula α → Option Bool
  | _, atom a, atom b => some (a == b)
  | limit, binary op left right, binary op' left' right' =>
    if op == op' then
      match limit with
      | 0 => none
      | limit + 1 =>
        match left.sameWithin? limit left' with
        | some true => right.sameWithin? limit right'
        | other => other
    else some false
  | _, _, _ => some false

end Formula

-- =============================================================== atoms

/-- The atoms of a goal. A variable and a constant never agree, not even
when they are written alike. -/
inductive Atom where
  | var (name : String)
  | const (value : Int)
  deriving DecidableEq, Repr

namespace Atom

/-- The text of an atom. Who asks for the text of a constant that is not
short is stopped (`obstacle?`). -/
def text : Atom → String
  | .var name => name
  | .const value => toString value

instance : ToString Atom := ⟨text⟩

/-- The number of digits of a constant. -/
def digitCount : Atom → Nat
  | .var _ => 0
  | .const n => (Nat.toDigits 10 n.natAbs).length

/-- Whether the digits of a constant are few enough to be read and
written. -/
def isShort (a : Atom) : Bool :=
  decide (a.digitCount ≤ Numeral.maxDigits)

/-- What stops whoever wants the text of an atom. -/
def obstacle? (a : Atom) : Option Formula.Obstacle :=
  if a.isShort then none else some .numeral

theorem isNone_obstacle? (a : Atom) : a.obstacle?.isNone = a.isShort := by
  unfold obstacle?
  cases a.isShort <;> rfl

end Atom

end Deduction
