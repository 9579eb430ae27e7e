/-
Signed machine words.

Numbers here have any size, but some of them end up as a length, a
position or a handle in the machine, where they have to be words. What
happens to one that is not depends on the use; this file only says which
numbers are words.
-/
namespace Deduction.Word

/-- Whether a number is a signed word of so many bits. -/
def fits (bits : Nat) (n : Int) : Bool :=
  decide (-Int.pow 2 (bits - 1) ≤ n ∧ n < Int.pow 2 (bits - 1))

/-- The bits of a length or a position. -/
def sizeBits : Nat := 64

/-- The bits of a handle. -/
def handleBits : Nat := 32

end Deduction.Word
