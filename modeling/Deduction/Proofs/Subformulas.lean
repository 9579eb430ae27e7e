/-
Where the formulas of a proof come from, and that they stay where they
are.

A goal can turn into parts of itself only: either side of a conjunction or
a disjunction, and the right side of an implication (`Formula.Target`).
Hypotheses come from left sides of implications among these, and from
taking such a left side apart (`Formula.Piece`). Rules hand this down
(`handedDown_target`), so it holds in every tree of a run, whatever the
run has overwritten or taken back.

Rules also never touch the hypotheses there are: they put new ones behind
them. So the context of a node begins with the context of each node above
it (`Faithful.prefix_context`), and a hypothesis keeps its number all the
way down.
-/
import Deduction.Proofs.Heredity

namespace Deduction

variable {α : Type}

-- =============================================================== parts

namespace Formula

/-- What the goal can be while some formula is being shown. -/
inductive Target (goal : Formula α) : Formula α → Prop where
  | self : Target goal goal
  | left {op : Connective} {left right : Formula α} :
      Target goal (.binary op left right) → op ≠ .imp → Target goal left
  | right {op : Connective} {left right : Formula α} :
      Target goal (.binary op left right) → op ≠ .imp → Target goal right
  | conclusion {left right : Formula α} :
      Target goal (.imp left right) → Target goal right

/-- What comes of a formula by taking conjunctions and disjunctions
apart. -/
inductive Piece (f : Formula α) : Formula α → Prop where
  | self : Piece f f
  | left {op : Connective} {left right : Formula α} :
      Piece f (.binary op left right) → op ≠ .imp → Piece f left
  | right {op : Connective} {left right : Formula α} :
      Piece f (.binary op left right) → op ≠ .imp → Piece f right

/-- A piece of the left side of an implication that the goal can be. -/
def Assumed (goal h : Formula α) : Prop :=
  ∃ left right, goal.Target (.imp left right) ∧ left.Piece h

end Formula

/-- Targets and what is assumed on the way to them are handed down. -/
theorem handedDown_target (goal : Formula α) :
    HandedDown goal.Assumed goal.Target where
  arrow h := ⟨⟨_, _, h, .self⟩, h.conclusion⟩
  goal h hop := ⟨h.left hop, h.right hop⟩
  hypothesis := by
    rintro op left right ⟨l, r, htarget, hpiece⟩ hop
    exact ⟨⟨l, r, htarget, hpiece.left hop⟩, ⟨l, r, htarget, hpiece.right hop⟩⟩

-- ============================================================ numbering

/-- The state still has the given hypotheses in front, unless its branch is
closed. -/
def State.Extends (context : List (Formula α)) : State α → Prop
  | .closed => True
  | .table s => context <+: s.context

theorem State.Extends.assume {context : List (Formula α)} {s : Sequent α}
    (h : State.Extends context (.table s)) (more : List (Formula α))
    (goal : Formula α) : (s.assume more goal).Extends context :=
  h.trans (List.prefix_append s.context more)

/-- Hypotheses that are added behind the others do not change the numbers of
these. -/
theorem Sequent.hypothesis?_of_prefix {s s' : Sequent α}
    (h : s.context <+: s'.context) {index : Value} {f : Formula α}
    (hf : s.hypothesis? index = some f) : s'.hypothesis? index = some f := by
  obtain ⟨i, hi, hget⟩ := Option.bind_eq_some_iff.1 hf
  obtain ⟨hlt, -⟩ := List.getElem?_eq_some_iff.1 hget
  refine Option.bind_eq_some_iff.2 ⟨i, hi, ?_⟩
  obtain ⟨more, hmore⟩ := h
  rw [← hmore, List.getElem?_append_left hlt]
  exact hget

variable [BEq α]

/-- A rule leaves the hypotheses in front. -/
theorem Sequent.Infers.extends {context : List (Formula α)} {s : Sequent α}
    {rule : Rule} {states : List (State α)} (hinf : s.Infers rule states)
    (h : State.Extends context (.table s)) :
    ∀ state ∈ states, state.Extends context := by
  cases hinf with
  | implIntro _ => simpa using h.assume _ _
  | orIntro1 _ => simpa using h.assume _ _
  | orIntro2 _ => simpa using h.assume _ _
  | andIntro _ => simpa using And.intro (h.assume _ _) (h.assume _ _)
  | andElim _ => simpa using h.assume _ _
  | orElim _ => simpa using And.intro (h.assume _ _) (h.assume _ _)
  | assumption _ _ => simp [State.Extends]

namespace ProofTree

/-- The context of a node is in front at every node below it. -/
theorem Faithful.prefix_context {n m : ProofTree α} (hf : Faithful n)
    {s s' : Sequent α} (hn : n.state = .table s) {path : Path}
    (hget : n.get? path = some m) (hm : m.state = .table s') :
    s.context <+: s'.context := by
  have hroot : State.Extends s.context n.state := by
    rw [hn]
    exact List.prefix_rfl
  have hextends := hf.inherits (fun hinf h => hinf.extends h) hroot hget
  rw [hm] at hextends
  exact hextends

-- ================================================================ runs

/-- Whatever is attempted: below a node its hypotheses stay in front, so
their numbers go on naming them; each goal is a target of the goal that the
run began with, and each hypothesis is assumed on the way to one. -/
theorem run_formulas (limit : Nat) (goal : Formula α)
    (attempts : List Attempt) :
    (∀ (p q : Path) (n m : ProofTree α) (s s' : Sequent α),
      ((ofGoal goal).run limit attempts).get? p = some n →
      ((ofGoal goal).run limit attempts).get? (p ++ q) = some m →
      n.state = .table s → m.state = .table s' →
      s.context <+: s'.context
        ∧ ∀ index h, s.hypothesis? index = some h →
            s'.hypothesis? index = some h)
    ∧ ∀ (p : Path) (n : ProofTree α) (s : Sequent α),
      ((ofGoal goal).run limit attempts).get? p = some n →
      n.state = .table s →
      goal.Target s.goal ∧ ∀ h ∈ s.context, goal.Assumed h := by
  constructor
  · intro p q n m s s' hp hq hn hm
    rw [get?_append, hp, Option.bind_some] at hq
    have hf := (faithful_run limit goal attempts).get? hp
    have hfront := hf.prefix_context hn hq hm
    exact ⟨hfront, fun index h => Sequent.hypothesis?_of_prefix hfront⟩
  · intro p n s hp hn
    have hobeys := (reaches_run limit (ofGoal goal) attempts).obeys
      (handedDown_target goal) .self hp
    rw [hn] at hobeys
    exact ⟨hobeys.2, hobeys.1⟩

/-- An implication with another one inside each of its sides. -/
def nested : Formula Atom :=
  .imp (.and (.atom (.var "A")) (.imp (.atom (.var "B")) (.atom (.var "C"))))
    (.or (.imp (.atom (.const 1)) (.atom (.var "A"))) (.atom (.var "C")))

/-- A proof of it, but for the last step, with a wrong turn overwritten. -/
def nesting : List Attempt :=
  [.move (.array []) (.rule .implIntro),
   .move (.array [.int 0]) (.rule .orIntro2),
   .move (.array [.int 0]) (.rule (.andElim (.int 0))),
   .move (.array [.int 0, .int 0]) (.rule .orIntro1),
   .move (.array [.int 0, .int 0, .int 0]) (.rule .implIntro)]

/-- From the first child down to the last node three hypotheses have been
added, one of them an implication, and number 0 is still the first. -/
theorem run_formulas_nested :
    ∃ n m s s', ((ofGoal nested).run 5 nesting).get? [0] = some n
      ∧ ((ofGoal nested).run 5 nesting).get? ([0] ++ [0, 0, 0]) = some m
      ∧ n.state = .table s ∧ m.state = .table s'
      ∧ s.text = "H0: A and B -> C |- 1 -> A or C"
      ∧ s'.text = "H0: A and B -> C, H1: A, H2: B -> C, H3: 1 |- A"
      ∧ s.context <+: s'.context
      ∧ s'.hypothesis? (.int 0) = s.hypothesis? (.int 0)
      ∧ nested.Target (.atom (.var "A"))
      ∧ nested.Assumed (.imp (.atom (.var "B")) (.atom (.var "C"))) := by
  obtain ⟨hbelow, hparts⟩ := run_formulas 5 nested nesting
  obtain ⟨hfront, hnumber⟩ := hbelow [0] [0, 0, 0] _ _ _ _ rfl rfl rfl rfl
  obtain ⟨htarget, hassumed⟩ := hparts [0, 0, 0, 0] _ _ rfl rfl
  refine ⟨_, _, _, _, rfl, rfl, rfl, rfl, by decide, by decide, hfront,
    hnumber (.int 0) _ rfl, htarget, ?_⟩
  exact hassumed _ (List.mem_of_getElem? (i := 2) rfl)

end ProofTree

end Deduction
