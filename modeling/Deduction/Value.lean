/-
Plain values, as they arrive in requests: null, truth values, whole
numbers of any size, binary64 numbers, text, arrays and objects.

Requests are not typed, so a hypothesis number or a path may be any
value. This file says what such a value is worth: how it is shown, when
two are equal, which number it stands for, whether it can count children
or hypotheses, and which elements it has.
-/
import Deduction.Key
import Deduction.Number.Numeral
import Deduction.Number.Shortest

namespace Deduction

/-- A plain value. The fields of an object keep their order. -/
inductive Value where
  | null
  | bool (b : Bool)
  | int (n : Int)
  | float (x : Binary64)
  | text (s : String)
  | array (elements : List Value)
  | object (fields : List (String × Value))
  deriving Repr

namespace Value

-- ================================================================ text

/-- The text of a truth value. -/
def boolText (b : Bool) : String :=
  if b then "True" else "False"

mutual

/-- The value as it is shown inside another one, text between quotes. -/
def quoted : Value → String
  | .null => "None"
  | .bool b => boolText b
  | .int n => toString n
  | .float x => x.text
  | .text s => Text.quoted s
  | .array elements => "[" ++ ", ".intercalate (quotedElements elements) ++ "]"
  | .object fields =>
    "\x7b" ++ ", ".intercalate (quotedFields fields) ++ "\x7d"

/-- The elements of an array, each as it is shown. -/
def quotedElements : List Value → List String
  | [] => []
  | v :: vs => quoted v :: quotedElements vs

/-- The fields of an object, each as it is shown. -/
def quotedFields : List (String × Value) → List String
  | [] => []
  | (name, v) :: fields =>
    (Text.quoted name ++ ": " ++ quoted v) :: quotedFields fields

end

/-- The value as it is shown by itself, text without quotes. -/
def display : Value → String
  | .text s => s
  | v => v.quoted

mutual

/-- Whether a value can be shown: none of the numbers in it has too many
digits. -/
def isShort : Value → Bool
  | .int n => Numeral.isShort n
  | .array elements => areShort elements
  | .object fields => fieldsAreShort fields
  | .null | .bool _ | .float _ | .text _ => true

/-- Whether the elements of an array can be shown. -/
def areShort : List Value → Bool
  | [] => true
  | v :: vs => isShort v && areShort vs

/-- Whether the fields of an object can be shown. -/
def fieldsAreShort : List (String × Value) → Bool
  | [] => true
  | (_, v) :: fields => isShort v && fieldsAreShort fields

end

/-- A sequence of values as it is shown, between round brackets. One
value alone is followed by a comma. -/
def sequenceText : List Value → String
  | [v] => "(" ++ v.quoted ++ ",)"
  | vs => "(" ++ ", ".intercalate (quotedElements vs) ++ ")"

-- ============================================================ equality

/-- The number a value stands for. A truth value counts as one or zero. -/
def number? : Value → Option Number
  | .bool b => some (.rational (if b then 1 else 0))
  | .int n => some (.rational n)
  | .float (.infinite negative) => some (.infinite negative)
  | .float x => x.toRat?.map .rational
  | _ => none

/-- The value of a named field. -/
def lookup (name : String) : List (String × Value) → Option Value
  | [] => none
  | (other, v) :: fields => if other = name then some v else lookup name fields

mutual

/-- Equality of plain values: numbers by what they stand for, arrays
element by element, objects field by field in any order. -/
def same : Value → Value → Bool
  | .null, .null => true
  | .text s, .text t => s == t
  | .array vs, .array ws => sameElements vs ws
  | .object fs, .object gs => fs.length == gs.length && sameFields fs gs
  | v, w =>
    match v.number?, w.number? with
    | some m, some n => m == n
    | _, _ => false

/-- Equality of arrays. -/
def sameElements : List Value → List Value → Bool
  | [], [] => true
  | v :: vs, w :: ws => same v w && sameElements vs ws
  | _, _ => false

/-- Whether each field on the left has an equal one on the right. -/
def sameFields : List (String × Value) → List (String × Value) → Bool
  | [], _ => true
  | (name, v) :: fs, gs =>
    match lookup name gs with
    | some w => same v w && sameFields fs gs
    | none => false

end

instance : BEq Value := ⟨same⟩

/-- The dictionary key of a value. Arrays and objects can change, so they
have none. -/
def key? : Value → Option Key
  | .null => some .null
  | .text s => some (.text s)
  | v => v.number?.map .number

-- ============================================================= numbers

/-- Why a value does not stand for a whole number. -/
inductive IntegerError where
  | numeral (cause : Numeral.Error)
  | infinite
  | notNumeric
  deriving DecidableEq, Repr

/-- The wording of an error. -/
def IntegerError.message : IntegerError → String
  | .numeral cause => cause.message
  | .infinite => "cannot convert float infinity to integer"
  | .notNumeric => "not a number"

/-- The whole number a value stands for: text is read as a numeral, and
a broken number is cut towards zero. -/
def toInteger : Value → Except IntegerError Int
  | .bool b => .ok (if b then 1 else 0)
  | .int n => .ok n
  | .float x =>
    match x.truncate? with
    | some n => .ok n
    | none => .error .infinite
  | .text s =>
    match Numeral.read s with
    | .ok n => .ok n
    | .error cause => .error (.numeral cause)
  | .null | .array _ | .object _ => .error .notNumeric

/-- The position a value names. Only a whole number that is not negative
names one: neither a truth value nor a number written with a point. -/
def position? : Value → Option Nat
  | .int (.ofNat n) => some n
  | _ => none

/-- The elements of a value: those of an array, the characters of a text,
the names of an object's fields. Other values have no elements. -/
def elements? : Value → Option (List Value)
  | .array elements => some elements
  | .text s => some (s.toList.map fun c => .text (String.singleton c))
  | .object fields => some (fields.map fun field => .text field.1)
  | _ => none

end Value

end Deduction
