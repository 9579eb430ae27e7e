/-
The shortest decimal text of a binary64 number.

Of all decimals that round to the number, those with the fewest digits
are wanted, and of those the nearest. The decimals that round to
`m * 2 ^ e` are the ones between the midpoints to its two neighbours;
the midpoints count when `m` is even. On the grid of `n`-digit decimals
only the two grid points around the number can be the nearest, so it is
enough to try `n = 1, 2, …` and look at those two. Seventeen digits tell
all numbers of the format apart.
-/
import Deduction.Number.Binary64

namespace Deduction.Binary64

-- ======================================================== the interval

/-- The decimals that round to a number: `low` to `high`, around
`centre`, in units of `2 ^ unit`. -/
structure Interval where
  low : Nat
  centre : Nat
  high : Nat
  unit : Int
  closed : Bool

/-- The interval of a positive number. Below a power of two the
neighbours are twice as dense, so there the lower half is shorter. -/
def interval (mantissa : Nat) (exponent : Int) : Interval :=
  let narrow := mantissa = Nat.pow 2 (precision - 1)
    ∧ leastExponent < exponent
  { low := 4 * mantissa - (if narrow then 1 else 2)
    centre := 4 * mantissa
    high := 4 * mantissa + 2
    unit := exponent - 2
    closed := mantissa % 2 = 0 }

/-- Both sides of a comparison of `digits * 10 ^ scale` with
`x * 2 ^ unit`, brought to whole numbers. -/
def sides (digits : Nat) (scale : Int) (x : Nat) (unit : Int) : Nat × Nat :=
  (digits * Nat.pow 10 scale.toNat * Nat.pow 2 (-unit).toNat,
   x * Nat.pow 2 unit.toNat * Nat.pow 10 (-scale).toNat)

/-- Whether the decimal rounds to the number. -/
def Interval.holds (i : Interval) (digits : Nat) (scale : Int) : Bool :=
  let (a, low) := sides digits scale i.low i.unit
  let (b, high) := sides digits scale i.high i.unit
  if i.closed then low ≤ a && b ≤ high else low < a && b < high

-- ============================================================ the grid

/-- How many digits the whole part has; zero or less for a number below
one, by how many zeros follow the point. -/
def magnitude (mantissa : Nat) (exponent : Int) : Int :=
  let num := mantissa * Nat.pow 2 exponent.toNat
  let den := Nat.pow 2 (-exponent).toNat
  if den ≤ num then (Nat.toDigits 10 (num / den)).length
  else
    -- `den / num` has `k` digits before the point, so `num / den` is
    -- just below `10 ^ (1 - k)`, or equal to it.
    let k : Int := (Nat.toDigits 10 (den / num)).length
    if den % num = 0 && den / num = Nat.pow 10 (k - 1).toNat then 2 - k
    else 1 - k

/-- The decimal with the wanted number of digits that rounds to the
number, the nearer one if there are two, as digits and scale. -/
def onGrid? (i : Interval) (places : Int) (count : Nat) : Option (Nat × Int) :=
  let scale := places - count
  let (top, bottom) := sides 1 scale i.centre i.unit
  let below := bottom / top
  let rest := bottom % top
  let above := below + 1
  match i.holds below scale, i.holds above scale with
  | true, true =>
    if 2 * rest < top || 2 * rest = top && below % 2 = 0 then some (below, scale)
    else some (above, scale)
  | true, false => some (below, scale)
  | false, true => some (above, scale)
  | false, false => none

/-- The digits and scale of the shortest decimal of a positive number. -/
def shortest (mantissa : Nat) (exponent : Int) : Nat × Int :=
  let i := interval mantissa exponent
  let places := magnitude mantissa exponent
  ((List.range' 1 17).findSome? (onGrid? i places)).getD (0, 0)

-- ================================================================ text

/-- Drops the zeros at the end of a list of digits. -/
def dropZeros (digits : List Char) : List Char :=
  (digits.reverse.dropWhile (· = '0')).reverse

/-- The text of a decimal point notation: the digits with the point after
the first `point` of them, and zeros where digits are missing. -/
def positional (digits : List Char) (point : Int) : List Char :=
  if point ≤ 0 then
    '0' :: '.' :: List.replicate (-point).toNat '0' ++ digits
  else
    let whole := digits.take point.toNat
    let part := digits.drop point.toNat
    whole ++ List.replicate (point.toNat - digits.length) '0' ++
      '.' :: (if part.isEmpty then ['0'] else part)

/-- The text of an exponent notation, with two digits in the exponent at
least. -/
def scientific (digits : List Char) (point : Int) : List Char :=
  let exponent := point - 1
  let size := Nat.toDigits 10 exponent.natAbs
  let part := digits.drop 1
  digits.take 1 ++ (if part.isEmpty then [] else '.' :: part) ++
    'e' :: (if exponent < 0 then '-' else '+') ::
      List.replicate (2 - size.length) '0' ++ size

/-- The text of a number: point notation from one ten-thousandth up to
sixteen whole digits, exponent notation beyond. -/
def text : Binary64 → String
  | .infinite negative => if negative then "-inf" else "inf"
  | .finite negative mantissa exponent =>
    let body :=
      if mantissa = 0 then ['0', '.', '0']
      else
        let (digits, scale) := shortest mantissa exponent
        let written := Nat.toDigits 10 digits
        let point : Int := written.length + scale
        let kept := dropZeros written
        if -4 < point && point ≤ 16 then positional kept point
        else scientific kept point
    String.ofList (if negative then '-' :: body else body)

end Deduction.Binary64
