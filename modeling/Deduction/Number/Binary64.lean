/-
Numbers in the binary64 format, held exactly: a sign, a whole mantissa
and a power of two.

A decimal literal is rounded once, to the nearest number of the format,
a tie going to the even mantissa. All arithmetic is on natural numbers,
so nothing here depends on a machine's floating point.
-/
namespace Deduction

/-- A number of the binary64 format that is not "not a number". -/
inductive Binary64 where
  /-- `mantissa * 2 ^ exponent`, with its sign. -/
  | finite (negative : Bool) (mantissa : Nat) (exponent : Int)
  | infinite (negative : Bool)
  deriving DecidableEq, Repr

namespace Binary64

/-- The exponent of the smallest step of the format. -/
def leastExponent : Int := -1074

/-- The exponent of the largest step of the format. -/
def greatestExponent : Int := 971

/-- The number of bits of a full mantissa. -/
def precision : Nat := 53

-- ============================================================ rounding

/-- The quotient rounded to the nearest whole number, a tie going to the
even one. -/
def roundDiv (num den : Nat) : Nat :=
  let q := num / den
  let r := num % den
  if 2 * r < den then q
  else if den < 2 * r then q + 1
  else q + q % 2

/-- The quotient `num / den` measured in steps of `2 ^ exponent`, as a
fraction again. -/
def inSteps (num den : Nat) (exponent : Int) : Nat × Nat :=
  (num * Nat.pow 2 (-exponent).toNat, den * Nat.pow 2 exponent.toNat)

/-- The exponent at which the quotient of two positive numbers has a full
mantissa, but not below the least one. -/
def stepFor (num den : Nat) : Int :=
  let low : Int := (num.log2 : Int) - den.log2 - precision
  let (n, d) := inSteps num den low
  max leastExponent (if Nat.pow 2 precision ≤ n / d then low + 1 else low)

/-- The number of the format that is nearest to `num / den`. -/
def ofFraction (negative : Bool) (num den : Nat) : Binary64 :=
  if num = 0 then .finite negative 0 0
  else
    let exponent := stepFor num den
    let (n, d) := inSteps num den exponent
    let mantissa := roundDiv n d
    -- Rounding up may carry into one bit more.
    let (mantissa, exponent) :=
      if mantissa = Nat.pow 2 precision then (mantissa / 2, exponent + 1)
      else (mantissa, exponent)
    if greatestExponent < exponent then .infinite negative
    else if mantissa = 0 then .finite negative 0 0
    else .finite negative mantissa exponent

/-- The number of the format that is nearest to `digits * 10 ^ scale`.
Literals far outside the range are settled by their size alone. -/
def ofDecimal (negative : Bool) (digits : Nat) (scale : Int) : Binary64 :=
  let size : Int := (Nat.toDigits 10 digits).length + scale
  if digits = 0 then .finite negative 0 0
  else if 310 < size then .infinite negative
  else if size < -400 then .finite negative 0 0
  else
    ofFraction negative (digits * Nat.pow 10 scale.toNat)
      (Nat.pow 10 (-scale).toNat)

-- =============================================================== value

/-- The whole part, towards zero; an infinite number has none. -/
def truncate? : Binary64 → Option Int
  | .finite negative mantissa exponent =>
    let whole : Nat :=
      mantissa * Nat.pow 2 exponent.toNat / Nat.pow 2 (-exponent).toNat
    some (if negative then -(whole : Int) else whole)
  | .infinite _ => none

/-- The exact value; an infinite number has none. -/
def toRat? : Binary64 → Option Rat
  | .finite negative mantissa exponent =>
    let whole : Nat := mantissa * Nat.pow 2 exponent.toNat
    some (mkRat (if negative then -(whole : Int) else whole)
      (Nat.pow 2 (-exponent).toNat))
  | .infinite _ => none

end Binary64

end Deduction
