/-
The seven rules of natural deduction, read from the goal upwards.

Four rules act on the goal. Three act on a hypothesis and carry its
number. The number is only looked at when the rule is applied, so it may
be any plain value; a value that numbers no hypothesis makes a rule that
never applies.
-/
import Deduction.Value

namespace Deduction

/-- A rule. -/
inductive Rule where
  /-- To show an implication, assume its left side. -/
  | implIntro
  /-- To show a disjunction, show its left side. -/
  | orIntro1
  /-- To show a disjunction, show its right side. -/
  | orIntro2
  /-- To show a conjunction, show both sides. -/
  | andIntro
  /-- Split a conjunction among the hypotheses. -/
  | andElim (index : Value)
  /-- Distinguish the cases of a disjunction among the hypotheses. -/
  | orElim (index : Value)
  /-- The goal is a hypothesis. -/
  | assumption (index : Value)
  deriving Repr

namespace Rule

/-- The name of a rule. -/
def name : Rule → String
  | .implIntro => "ImplIntro"
  | .orIntro1 => "OrIntro1"
  | .orIntro2 => "OrIntro2"
  | .andIntro => "AndIntro"
  | .andElim _ => "AndElim"
  | .orElim _ => "OrElim"
  | .assumption _ => "Assumption"

/-- The hypothesis number of a rule that has one. -/
def index? : Rule → Option Value
  | .andElim index | .orElim index | .assumption index => some index
  | _ => none

/-- Whether the rule acts on a hypothesis. -/
def needsIndex (r : Rule) : Bool := r.index?.isSome

/-- The rule as it is shown: its name, with the number if it has one. -/
def text (r : Rule) : String :=
  match r.index? with
  | some index => r.name ++ "(" ++ index.display ++ ")"
  | none => r.name

/-- Whether a rule can be shown: its number must not be too long. -/
def isShort (r : Rule) : Bool := r.index?.all Value.isShort

/-- The rule as it is shown inside something else. -/
def quoted (r : Rule) : String :=
  if r.needsIndex then r.text else r.name ++ "()"

/-- Equality of rules: the same rule with equal numbers. -/
def same : Rule → Rule → Bool
  | .implIntro, .implIntro => true
  | .orIntro1, .orIntro1 => true
  | .orIntro2, .orIntro2 => true
  | .andIntro, .andIntro => true
  | .andElim i, .andElim j => i.same j
  | .orElim i, .orElim j => i.same j
  | .assumption i, .assumption j => i.same j
  | _, _ => false

instance : BEq Rule := ⟨same⟩

/-- The dictionary key of a rule, if its number has one. -/
def key? (r : Rule) : Option Key :=
  match r.index? with
  | some index => index.key?.map (.pair (.text r.name))
  | none => some (.text r.name)

-- ============================================================== naming

/-- Why there is no rule of a given name. -/
inductive NameError where
  | unknown (name : Value)
  /-- The name is an array or an object, which cannot be looked up. -/
  | unfit
  deriving Repr

/-- The wording of an error. -/
def NameError.message : NameError → String
  | .unknown name => name.quoted
  | .unfit => "no name"

/-- The rule of a given name, with a number for the rules that take
one. -/
def ofName? (name : String) (index : Value) : Option Rule :=
  match name with
  | "ImplIntro" => some .implIntro
  | "AndIntro" => some .andIntro
  | "OrIntro1" => some .orIntro1
  | "OrIntro2" => some .orIntro2
  | "Assumption" => some (.assumption index)
  | "AndElim" => some (.andElim index)
  | "OrElim" => some (.orElim index)
  | _ => none

/-- The rule that a plain value names. -/
def make (name index : Value) : Except NameError Rule :=
  match name with
  | .text s =>
    match ofName? s index with
    | some r => .ok r
    | none => .error (.unknown name)
  | .array _ | .object _ => .error .unfit
  | _ => .error (.unknown name)

/-- The number a rule gets when none is given. -/
def defaultIndex : Value := .int 0

end Rule

/-- What may be handed over in place of a rule. -/
inductive Move where
  | rule (r : Rule)
  /-- A value that is no rule. -/
  | foreign (v : Value)
  deriving Repr

end Deduction
