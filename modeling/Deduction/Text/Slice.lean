/-
Cutting and editing lists by integer positions that may fall outside
the list.

A negative position counts from the end. A cut never fails: both bounds
are brought into the list first. Insertion clamps its position in the
same way, while replacing or erasing a cell that is not there fails. An
edit needs a position that is a machine word, and so does a run of
blanks for its length.
-/
import Deduction.Number.Word

namespace Deduction.Text

-- =========================================================== positions

/-- A bound of a cut, counted from the end when negative and brought
between `0` and the length. -/
def clamp (length : Nat) (i : Int) : Nat :=
  if i < 0 then (i + length).toNat else min i.toNat length

/-- Why a list cannot be edited at a position. -/
inductive EditError where
  /-- The position of a new cell is no machine word. -/
  | insertion
  /-- The position of a cell is no machine word. -/
  | position
  /-- There is no cell at the position. -/
  | outside
  deriving DecidableEq, Repr

/-- The wording of an error. -/
def EditError.message : EditError → String
  | .insertion | .position => "position out of range"
  | .outside => "list assignment index out of range"

/-- The cell that a position names. -/
def cell (length : Nat) (i : Int) : Except EditError Nat :=
  let j := if i < 0 then i + length else i
  if !Word.fits Word.sizeBits i then .error .position
  else if 0 ≤ j ∧ j < length then .ok j.toNat
  else .error .outside

-- ================================================================ cuts

/-- The part of the list from one bound up to, but not including, the
other; empty when they are crossed. -/
def slice {α : Type} (xs : List α) (first last : Int) : List α :=
  let i := clamp xs.length first
  let j := clamp xs.length last
  (xs.take j).drop i

/-- The text filled with spaces on the right up to the width. -/
def padRight (cs : List Char) (width : Int) : List Char :=
  cs ++ List.replicate (width.toNat - cs.length) ' '

/-- A run of spaces, empty when the width is not positive. -/
def spaces (width : Int) : List Char :=
  List.replicate width.toNat ' '

/-- Why there is no room for a text. -/
inductive RoomError where
  /-- The width a text is to be filled up to is no machine word. -/
  | fill
  /-- The length of a run of spaces is no machine word. -/
  | blank
  /-- The memory is too small. -/
  | memory
  deriving DecidableEq, Repr

/-- The wording of an error. -/
def RoomError.message : RoomError → String
  | .fill | .blank => "width out of range"
  | .memory => "out of memory"

/-- The longest text there is memory for. The number is that of a machine,
and nothing hangs on it but where a text is too long. -/
def longest : Int := Int.pow 2 32

/-- Why a text cannot be filled up to a width. -/
def fillError? (width : Int) : Option RoomError :=
  if !Word.fits Word.sizeBits width then some .fill
  else if longest < width then some .memory
  else none

/-- Why there is no run of spaces of a length. -/
def blankError? (width : Int) : Option RoomError :=
  if !Word.fits Word.sizeBits width then some .blank
  else if longest < width then some .memory
  else none

-- =============================================================== edits

/-- The list with a new cell at the (clamped) position. -/
def insertAt {α : Type} (xs : List α) (i : Int) (x : α) :
    Except EditError (List α) :=
  let j := clamp xs.length i
  if Word.fits Word.sizeBits i then .ok (xs.take j ++ x :: xs.drop j)
  else .error .insertion

/-- The list with the cell at the position replaced. -/
def replaceAt {α : Type} (xs : List α) (i : Int) (x : α) :
    Except EditError (List α) :=
  (cell xs.length i).map (xs.set · x)

/-- The list without the cell at the position. -/
def eraseAt {α : Type} (xs : List α) (i : Int) : Except EditError (List α) :=
  (cell xs.length i).map xs.eraseIdx

end Deduction.Text
