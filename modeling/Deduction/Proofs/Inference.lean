/-
What the rules can do, said once.

`Sequent.refine` is a function, and a proof that wants to know why it
gave some states would have to open its seven branches every time. The
relation `Infers` lists the seven ways in which a rule is accepted, each
with its condition and with what it leaves to be shown. It is exact
(`refine_eq_iff`), so everything later argues by cases on `Infers` and
the function stays closed.

Two readings that the conditions rest on stand first: sameness of
formulas is an equality as good as that of their atoms, and a hypothesis
number reaches exactly the member of the context at that position.
-/
import Deduction.Sequent.Refine

namespace Deduction

variable {α : Type}

-- ============================================================ sameness

/-- A property of every atom of a formula. -/
def Formula.All (P : α → Prop) : Formula α → Prop
  | .atom a => P a
  | .binary _ left right => left.All P ∧ right.All P

theorem Formula.all_of_forall {P : α → Prop} (h : ∀ a, P a) (f : Formula α) :
    f.All P := by
  induction f with
  | atom a => exact h a
  | binary op left right ihl ihr => exact ⟨ihl, ihr⟩

theorem Formula.same_binary [BEq α] {op op' : Connective}
    {left right left' right' : Formula α} :
    (binary op left right).same (binary op' left' right') = true ↔
      op = op' ∧ left.same left' = true ∧ right.same right' = true := by
  rw [same, Bool.and_eq_true, Bool.and_eq_true, beq_iff_eq, and_assoc]

section

variable [BEq α] {P : α → Prop} {f g k : Formula α}

/-- Sameness of formulas is equality, if sameness of their atoms is. -/
theorem Formula.same_iff_eq_of
    (hatom : ∀ a b, P a → P b → ((a == b) = true ↔ a = b))
    (hf : f.All P) (hg : g.All P) : f.same g = true ↔ f = g := by
  induction f generalizing g with
  | atom a =>
      cases g with
      | atom b => rw [same, hatom a b hf hg, Formula.atom.injEq]
      | binary op left right => simp [Formula.same]
  | binary op left right ihl ihr =>
      cases g with
      | atom b => simp [Formula.same]
      | binary op' left' right' =>
          rw [same_binary, ihl hf.1 hg.1, ihr hf.2 hg.2,
            Formula.binary.injEq]

/-- Sameness is symmetric on formulas if agreement is on the atoms in
them. -/
theorem Formula.same_symm_of
    (hatom : ∀ a b, P a → P b → (a == b) = true → (b == a) = true)
    (hf : f.All P) (hg : g.All P) (h : f.same g = true) :
    g.same f = true := by
  induction f generalizing g with
  | atom a =>
      cases g with
      | atom b => exact hatom a b hf hg h
      | binary op left right => cases h
  | binary op left right ihl ihr =>
      cases g with
      | atom b => cases h
      | binary op' left' right' =>
          obtain ⟨hop, hl, hr⟩ := same_binary.1 h
          exact same_binary.2
            ⟨hop.symm, ihl hf.1 hg.1 hl, ihr hf.2 hg.2 hr⟩

/-- So it is with transitivity. The two comparisons go down the three
formulas together, so connectives are the same all along. -/
theorem Formula.same_trans_of
    (hatom : ∀ a b c, P a → P b → P c →
      (a == b) = true → (b == c) = true → (a == c) = true)
    (hf : f.All P) (hg : g.All P) (hk : k.All P)
    (hfg : f.same g = true) (hgk : g.same k = true) : f.same k = true := by
  induction f generalizing g k with
  | atom a =>
      cases g with
      | atom b =>
          cases k with
          | atom c => exact hatom a b c hf hg hk hfg hgk
          | binary op left right => cases hgk
      | binary op left right => cases hfg
  | binary op left right ihl ihr =>
      cases g with
      | atom b => cases hfg
      | binary op' left' right' =>
          cases k with
          | atom c => cases hgk
          | binary op'' left'' right'' =>
              obtain ⟨hop, hl, hr⟩ := same_binary.1 hfg
              obtain ⟨hop', hl', hr'⟩ := same_binary.1 hgk
              exact same_binary.2 ⟨hop.trans hop',
                ihl hf.1 hg.1 hk.1 hl hl', ihr hf.2 hg.2 hk.2 hr hr'⟩

theorem Formula.same_iff_eq [LawfulBEq α] (f g : Formula α) :
    f.same g = true ↔ f = g :=
  same_iff_eq_of (P := fun _ => True) (fun _ _ _ _ => beq_iff_eq)
    (all_of_forall (fun _ => trivial) f) (all_of_forall (fun _ => trivial) g)

instance [LawfulBEq α] : LawfulBEq (Formula α) where
  eq_of_beq {f g} h := (f.same_iff_eq g).1 h
  rfl {f} := (f.same_iff_eq f).2 rfl

theorem Formula.same_symm [PartialEquivBEq α] (h : f.same g = true) :
    g.same f = true :=
  same_symm_of (P := fun _ => True) (fun _ _ _ _ => PartialEquivBEq.symm)
    (all_of_forall (fun _ => trivial) f) (all_of_forall (fun _ => trivial) g) h

theorem Formula.same_trans [PartialEquivBEq α] (hfg : f.same g = true)
    (hgk : g.same k = true) : f.same k = true :=
  same_trans_of (P := fun _ => True) (fun _ _ _ _ _ _ => PartialEquivBEq.trans)
    (all_of_forall (fun _ => trivial) f) (all_of_forall (fun _ => trivial) g)
    (all_of_forall (fun _ => trivial) k) hfg hgk

end

-- ========================================================== hypotheses

/-- The value that numbers a position. -/
def Value.ofNat (n : Nat) : Value := .int (.ofNat n)

@[simp] theorem Value.position?_ofNat (n : Nat) :
    (Value.ofNat n).position? = some n := rfl

/-- A value names a position just if it is that whole number. -/
theorem Value.position?_eq_some_iff {v : Value} {i : Nat} :
    v.position? = some i ↔ v = .ofNat i := by
  constructor
  · intro h
    unfold position? at h
    split at h
    next n => injection h with h; rw [h]; rfl
    next => cases h
  · rintro rfl
    exact position?_ofNat i

namespace Sequent

theorem hypothesis?_mem {s : Sequent α} {index : Value} {h : Formula α}
    (hh : s.hypothesis? index = some h) : h ∈ s.context := by
  obtain ⟨i, -, hi⟩ := Option.bind_eq_some_iff.1 hh
  exact List.mem_of_getElem? hi

/-- What reaches a hypothesis is its position, as a whole number. -/
theorem position_of_hypothesis? {s : Sequent α} {index : Value}
    {h : Formula α} (hh : s.hypothesis? index = some h) :
    ∃ i : Nat, index = .int i ∧ i < s.context.length := by
  obtain ⟨i, hposition, hi⟩ := Option.bind_eq_some_iff.1 hh
  obtain ⟨hlt, -⟩ := List.getElem?_eq_some_iff.1 hi
  exact ⟨i, Value.position?_eq_some_iff.1 hposition, hlt⟩

theorem exists_hypothesis? {s : Sequent α} {h : Formula α}
    (hh : h ∈ s.context) : ∃ i, s.hypothesis? (.ofNat i) = some h := by
  obtain ⟨i, hi⟩ := List.getElem?_of_mem hh
  exact ⟨i, hi⟩

/-- A whole number reaches a hypothesis just if it is one of the positions
from zero on. -/
theorem hypothesis?_int_iff {s : Sequent α} {i : Int} {h : Formula α} :
    s.hypothesis? (.int i) = some h ↔
      0 ≤ i ∧ s.context[i.toNat]? = some h := by
  cases i with
  | ofNat n =>
      constructor
      · intro hn
        exact ⟨Int.natCast_nonneg n, hn⟩
      · rintro ⟨-, hn⟩
        exact hn
  | negSucc n =>
      constructor
      · intro hn
        cases hn
      · rintro ⟨hnonneg, -⟩
        exact absurd hnonneg (Int.not_le.2 (Int.negSucc_lt_zero n))

-- =========================================================== inference

/-- The ways in which a rule is accepted at a sequent, with the states
that then remain to be shown. -/
inductive Infers [BEq α] (s : Sequent α) : Rule → List (State α) → Prop where
  | implIntro {left right : Formula α} :
      s.goal = .imp left right →
      Infers s .implIntro [s.assume [left] right]
  | orIntro1 {left right : Formula α} :
      s.goal = .or left right →
      Infers s .orIntro1 [s.assume [] left]
  | orIntro2 {left right : Formula α} :
      s.goal = .or left right →
      Infers s .orIntro2 [s.assume [] right]
  | andIntro {left right : Formula α} :
      s.goal = .and left right →
      Infers s .andIntro [s.assume [] left, s.assume [] right]
  | andElim {index : Value} {left right : Formula α} :
      s.hypothesis? index = some (.and left right) →
      Infers s (.andElim index) [s.assume [left, right] s.goal]
  | orElim {index : Value} {left right : Formula α} :
      s.hypothesis? index = some (.or left right) →
      Infers s (.orElim index)
        [s.assume [left] s.goal, s.assume [right] s.goal]
  | assumption {index : Value} {h : Formula α} :
      s.hypothesis? index = some h → h.same s.goal = true →
      Infers s (.assumption index) [.closed]

variable [BEq α] {s : Sequent α} {rule : Rule} {states : List (State α)}

theorem Infers.ne_nil (h : s.Infers rule states) : states ≠ [] := by
  cases h <;> exact List.cons_ne_nil _ _

/-- What the relation allows, the function computes. -/
theorem Infers.refine_eq (h : s.Infers rule states) :
    s.refine rule = states := by
  cases h with
  | implIntro hg => simp only [refine, hg]
  | orIntro1 hg => simp only [refine, hg]
  | orIntro2 hg => simp only [refine, hg]
  | andIntro hg => simp only [refine, hg]
  | andElim hh => simp only [refine, hh]
  | orElim hh => simp only [refine, hh]
  | assumption hh hsame => simp only [refine, hh, hsame, if_true]

/-- What the function computes, unless it refuses, the relation allows. -/
theorem infers_refine (hne : s.refine rule ≠ []) :
    s.Infers rule (s.refine rule) := by
  cases rule with
  | implIntro =>
      simp only [refine] at hne ⊢
      split at hne
      next left right hg => exact .implIntro hg
      next => exact absurd rfl hne
  | orIntro1 =>
      simp only [refine] at hne ⊢
      split at hne
      next left right hg => exact .orIntro1 hg
      next => exact absurd rfl hne
  | orIntro2 =>
      simp only [refine] at hne ⊢
      split at hne
      next left right hg => exact .orIntro2 hg
      next => exact absurd rfl hne
  | andIntro =>
      simp only [refine] at hne ⊢
      split at hne
      next left right hg => exact .andIntro hg
      next => exact absurd rfl hne
  | andElim index =>
      simp only [refine] at hne ⊢
      split at hne
      next left right hh => exact .andElim hh
      next => exact absurd rfl hne
  | orElim index =>
      simp only [refine] at hne ⊢
      split at hne
      next left right hh => exact .orElim hh
      next => exact absurd rfl hne
  | assumption index =>
      simp only [refine] at hne ⊢
      split at hne
      next h hh =>
        split at hne
        next hsame =>
          rw [if_pos hsame]
          exact .assumption hh hsame
        next => exact absurd rfl hne
      next => exact absurd rfl hne

/-- The relation is exactly the function where it does not refuse. -/
theorem refine_eq_iff :
    s.refine rule = states ∧ states ≠ [] ↔ s.Infers rule states := by
  constructor
  · rintro ⟨rfl, hne⟩
    exact infers_refine hne
  · intro h
    exact ⟨h.refine_eq, h.ne_nil⟩

end Sequent

end Deduction
