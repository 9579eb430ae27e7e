/-
Whole numbers written as text.

A numeral is a run of decimal digits of any script, in which single low
lines may separate digits, with one sign in front at most and blanks
around. A run of more than `Numeral.maxDigits` digits is refused,
whatever follows it, because reading it would take too long. For the
same reason a number of more digits is not written.
-/
import Deduction.Text.Quoted

namespace Deduction.Numeral

open Text

/-- Why a text is not read as a number, or a number not written. -/
inductive Error where
  /-- The text is no numeral. -/
  | malformed (text : String)
  /-- The numeral has this many digits, which is too many. -/
  | tooLong (digits : Nat)
  /-- The number has too many digits to be written. -/
  | unwritable
  deriving DecidableEq, Repr

/-- The longest run of digits that is read or written. -/
def maxDigits : Nat := 4300

/-- Whether a number has few enough digits to be written. -/
def isShort (n : Int) : Bool :=
  decide ((Nat.toDigits 10 n.natAbs).length ≤ maxDigits)

/-- How much of a malformed text its message shows. -/
def shownWidth : Nat := 200

/-- The wording of an error. -/
def Error.message : Error → String
  | .malformed text =>
    "invalid literal for int() with base 10: "
      ++ String.ofList ((quotedChars text.toList).take shownWidth)
  | .tooLong digits =>
    "Exceeds the limit (" ++ toString maxDigits
      ++ " digits) for integer string conversion: value has " ++ toString digits
      ++ " digits; use sys.set_int_max_str_digits() to increase the limit"
  | .unwritable =>
    "Exceeds the limit (" ++ toString maxDigits
      ++ " digits) for integer string conversion; use "
      ++ "sys.set_int_max_str_digits() to increase the limit"

-- ============================================================ the parts

/-- The blanks allowed around a numeral: white space, but for the four
information separators. -/
def isMargin (c : Char) : Bool :=
  isBlank c && !(0x1c ≤ c.toNat && c.toNat ≤ 0x1f)

/-- The text without the blanks at its ends. -/
def dropMargins (cs : List Char) : List Char :=
  ((cs.dropWhile isMargin).reverse.dropWhile isMargin).reverse

/-- Takes the sign off: whether it is a minus, and what follows. -/
def splitSign : List Char → Bool × List Char
  | '-' :: cs => (true, cs)
  | '+' :: cs => (false, cs)
  | cs => (false, cs)

/-- The characters of which a run of digits is made. -/
def isRunChar (c : Char) : Bool :=
  isDecimal c || c = '_'

/-- A run in which every low line stands between two digits. -/
def isGrouped : List Char → Bool
  | [] => false
  | [c] => isDecimal c
  | c :: d :: cs => (isDecimal c || c = '_' && isDecimal d) && isGrouped (d :: cs)

/-- A run that starts with a digit and is grouped. -/
def isRun (cs : List Char) : Bool :=
  (cs.head?.any isDecimal) && isGrouped cs

/-- The value of a list of digits, the most significant first. -/
def value (digits : List Char) : Nat :=
  digits.foldl (fun n c => 10 * n + (decimalValue? c).getD 0) 0

-- ============================================================= reading

/-- Reads a text as a whole number. -/
def read (text : String) : Except Error Int :=
  let (negative, body) := splitSign (dropMargins text.toList)
  let run := body.takeWhile isRunChar
  let digits := run.filter isDecimal
  if !isRun run then .error (.malformed text)
  else if maxDigits < digits.length then .error (.tooLong digits.length)
  else if run.length < body.length then .error (.malformed text)
  else .ok (if negative then -(value digits : Int) else value digits)

end Deduction.Numeral
