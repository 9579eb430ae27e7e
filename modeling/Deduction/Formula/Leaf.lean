/-
Leaves of formulas that another program hands over.

Besides proper atoms there may be labels, identifiers whose name is not
a text, and plain values, which are no formulas at all. A formula with
such leaves can be shown, compared and worked on like any other, but a
plain value is the same as nothing, not even as itself. What is handed
over may also be nested too deeply, or have constants of too many digits,
to be shown or filed.
-/
import Deduction.Formula.Read

namespace Deduction

/-- A leaf of a formula of foreign make. -/
inductive Leaf where
  | atom (a : Atom)
  /-- An identifier whose name is null or not a text. -/
  | label (name : Value)
  /-- A value that is no formula. -/
  | plain (value : Value)
  deriving Repr

namespace Leaf

/-- Sameness of leaves, which plain values do not take part in. -/
def same : Leaf → Leaf → Bool
  | .atom a, .atom b => a == b
  | .label p, .label q => p.same q
  | _, _ => false

instance : BEq Leaf := ⟨same⟩

/-- The leaf as it is shown by itself. -/
def display : Leaf → String
  | .atom a => a.text
  | .label name => name.display
  | .plain v => v.display

instance : ToString Leaf := ⟨display⟩

/-- The leaf as it is shown inside something else. -/
def quoted : Leaf → String
  | .atom a => a.text
  | .label name => name.quoted
  | .plain v => v.quoted

/-- The dictionary key of a leaf. Atoms go by their text alone, so labels
have no key, and neither have constants of too many digits. -/
def key? : Leaf → Option Key
  | .atom a => if a.isShort then some (.text a.text) else none
  | .label _ => none
  | .plain v => v.key?

/-- What stops whoever wants the text of a leaf; labels have none. -/
def textObstacle? : Leaf → Option Formula.Obstacle
  | .atom a => a.obstacle?
  | .label _ => some .atom
  | .plain v => if v.isShort then none else some .numeral

/-- What stops whoever wants the key of a leaf. -/
def keyObstacle? : Leaf → Option Formula.Obstacle
  | .atom a => a.obstacle?
  | .label _ => some .atom
  | .plain v => if v.key?.isSome then none else some .atom

/-- Reads a token as a leaf. Identifiers are accepted whatever their
payload. -/
def ofToken : AtomReader Leaf := fun t =>
  match t.kind, t.payload with
  | .identifier, some (.text name) => some (.ok (.atom (.var name)))
  | .identifier, some payload => some (.ok (.label payload.toValue))
  | .identifier, none => some (.ok (.label .null))
  | _, _ => (Atom.ofToken t).map (Except.map .atom)

end Leaf

namespace Formula

/-- The formula as it is shown inside something else. -/
def quoted (f : Formula Leaf) : String := f.textWith Leaf.quoted

/-- What keeps a formula from being shown: too many nested connectives,
or a leaf without a text. -/
def textObstacle? (limit : Nat) (f : Formula Leaf) : Option Obstacle :=
  f.obstacle? Leaf.textObstacle? limit

/-- What keeps a formula out of a dictionary: too many nested
connectives, or a leaf without a key. -/
def keyObstacle? (limit : Nat) (f : Formula Leaf) : Option Obstacle :=
  f.obstacle? Leaf.keyObstacle? limit

/-- The dictionary key of a formula, unless something keeps it out. -/
def key? (limit : Nat) (f : Formula Leaf) : Option Key :=
  match f.keyObstacle? limit with
  | some _ => none
  | none => f.keyWith Leaf.key?

end Formula

end Deduction
