/-
An attempt is made at one node, and is nobody else's business.

What is asked for at a path depends on the node there and on nothing else:
the node responds, and what it responds with takes its place
(`attempt_eq_respond`). So the laws of replacements are laws of attempts.
Nothing shows of an attempt away from the subtree at its path
(`label_get?_replace`), and two attempts at paths that are apart meet the
same nodes in either order and come to the same tree (`attempt_comm`),
whether they are accepted, refused or end in an error.
-/
import Deduction.Proofs.Run

namespace Deduction.ProofTree

variable {α : Type} [BEq α] {limit : Nat} {t : ProofTree α} {p q : Path}

/-- At a path that is apart from that of another attempt, an attempt is
answered as if the other had not been made, and replaces the same node. -/
theorem attempt_after {a b : Attempt} {found : ProofTree α}
    (ha : t.find a.path = .ok p) (hb : t.find b.path = .ok q)
    (hget : t.get? q = some found) (hapart : Apart p q) :
    (t.attempt limit a).2.attempt limit b
      = ((found.respond limit b).1,
          (t.attempt limit a).2.replace q (found.respond limit b).2) := by
  obtain ⟨other, hother⟩ := get?_of_find ha
  have hstill : (t.attempt limit a).2.get? q = some found := by
    rw [attempt_eq_respond ha hother, get?_replace_of_apart hapart]
    exact hget
  exact attempt_eq_respond (find_of_get? hb hstill) hstill

/-- Attempts at paths that are apart do not see each other. -/
theorem attempt_comm {a b : Attempt} (ha : t.find a.path = .ok p)
    (hb : t.find b.path = .ok q) (hapart : Apart p q) :
    ((t.attempt limit a).2.attempt limit b).1 = (t.attempt limit b).1
      ∧ ((t.attempt limit b).2.attempt limit a).1 = (t.attempt limit a).1
      ∧ ((t.attempt limit a).2.attempt limit b).2
        = ((t.attempt limit b).2.attempt limit a).2 := by
  obtain ⟨x, hx⟩ := get?_of_find ha
  obtain ⟨y, hy⟩ := get?_of_find hb
  rw [attempt_after ha hb hy hapart, attempt_after hb ha hx hapart.symm,
    attempt_eq_respond ha hx, attempt_eq_respond hb hy]
  exact ⟨rfl, rfl, replace_comm hapart⟩

/-- An attempt, at whatever tree: nodes that are not below its path keep
their state, their rule and the number of their children; unless it is
accepted, nothing changes; and two attempts at paths neither of which leads
through the other have the same answers, and give the same tree, in either
order. -/
theorem attempts_independent (limit : Nat) (t : ProofTree α) :
    (∀ (a : Attempt) (p : Path), t.find a.path = .ok p →
      ∀ q : Path, ¬ p <+: q →
        ((t.attempt limit a).2.get? q).map label = (t.get? q).map label)
    ∧ (∀ a : Attempt, (t.attempt limit a).1 ≠ some true →
      (t.attempt limit a).2 = t)
    ∧ ∀ (a b : Attempt) (p q : Path), t.find a.path = .ok p →
      t.find b.path = .ok q → ¬ p <+: q → ¬ q <+: p →
        ((t.attempt limit a).2.attempt limit b).1 = (t.attempt limit b).1
        ∧ ((t.attempt limit b).2.attempt limit a).1 = (t.attempt limit a).1
        ∧ ((t.attempt limit a).2.attempt limit b).2
          = ((t.attempt limit b).2.attempt limit a).2 := by
  refine ⟨?_, ?_, ?_⟩
  · intro a p hfind q hpq
    obtain ⟨found, hget⟩ := get?_of_find hfind
    rw [attempt_eq_respond hfind hget]
    exact label_get?_replace hpq
  · intro a hrefused
    rcases attempt_cases limit t a with
      ⟨path, found, step, new, -, -, -, -, -, hattempt⟩ | ⟨-, hsame⟩
    · rw [hattempt] at hrefused
      exact absurd rfl hrefused
    · exact hsame
  · intro a b p q ha hb hpq hqp
    exact attempt_comm ha hb ⟨hpq, hqp⟩

/-- A conjunction of two implications, and a start on the left one. -/
def twoSided : ProofTree Atom :=
  (ofGoal (.and (.imp (.atom (.var "A")) (.atom (.var "A")))
      (.imp (.atom (.var "B")) (.atom (.const 0))))).run 5
    [.move (.array []) (.rule .andIntro),
     .move (.array [.int 0]) (.rule .implIntro)]

/-- Taking back what has been done on the left. -/
def leftBack : Attempt := .undo (.array [.int 0])

/-- A start on the right. -/
def rightStart : Attempt := .move (.array [.int 1]) (.rule .implIntro)

/-- An assumption on the right, where there is no hypothesis yet. -/
def rightEarly : Attempt :=
  .move (.array [.int 1]) (.rule (.assumption (.int 0)))

/-- On the right again, something that is no rule. -/
def rightForeign : Attempt := .move (.array [.int 1]) (.foreign .null)

/-- The first two can be done in either order, and neither side shows what
is done on the other. The third is refused and the last is an error; both
leave the tree alone. -/
theorem attempts_independent_twoSided :
    (twoSided.attempt 5 leftBack).1 = some true
      ∧ (twoSided.attempt 5 rightStart).1 = some true
      ∧ ((twoSided.attempt 5 leftBack).2.attempt 5 rightStart).2
        = ((twoSided.attempt 5 rightStart).2.attempt 5 leftBack).2
      ∧ ((twoSided.attempt 5 rightStart).2.get? [0, 0]).map label
        = (twoSided.get? [0, 0]).map label
      ∧ (twoSided.attempt 5 rightEarly).1 = some false
      ∧ (twoSided.attempt 5 rightEarly).2 = twoSided
      ∧ (twoSided.attempt 5 rightForeign).1 = none
      ∧ (twoSided.attempt 5 rightForeign).2 = twoSided := by
  obtain ⟨hframe, hrefused, hcomm⟩ := attempts_independent 5 twoSided
  refine ⟨rfl, rfl, ?_, ?_, rfl, ?_, rfl, ?_⟩
  · exact (hcomm leftBack rightStart [0] [1] rfl rfl (by decide)
      (by decide)).2.2
  · exact hframe rightStart [1] rfl [0, 0] (by decide)
  · exact hrefused rightEarly (by decide)
  · exact hrefused rightForeign (by decide)

end Deduction.ProofTree
