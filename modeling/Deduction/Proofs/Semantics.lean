/-
What formulas and sequents mean.

A formula takes its value in a Heyting algebra once its atoms have one
(`Formula.value`), and a sequent holds if the meet of its hypotheses is
below its goal. A formula that is ⊤ under every valuation in every
Heyting algebra is intuitionistically valid; the two truth values are one
such algebra, and there the value is what a truth table says
(`value_eq_truth`), so validity implies being a tautology.

Each rule is sound read downwards (`Infers.holds`): if the states that it
leaves hold, so does the sequent it was applied to. This is the one place
where the seven rules are looked at one by one.
-/
import Deduction.Proofs.Inference
import Mathlib.Data.Fintype.Order

namespace Deduction

universe u

variable {α : Type} {H : Type u}

-- ============================================================ formulas

/-- The value of a formula in a Heyting algebra, given the values of its
atoms. -/
def Formula.value [HeytingAlgebra H] (v : α → H) : Formula α → H
  | .atom a => v a
  | .binary .and left right => left.value v ⊓ right.value v
  | .binary .or left right => left.value v ⊔ right.value v
  | .binary .imp left right => left.value v ⇨ right.value v

/-- The truth value of a formula, given the truth values of its atoms. -/
def Formula.truth (v : α → Bool) : Formula α → Bool
  | .atom a => v a
  | .binary .and left right => left.truth v && right.truth v
  | .binary .or left right => left.truth v || right.truth v
  | .binary .imp left right => !left.truth v || right.truth v

/-- Truth tables are the Heyting algebra of two elements. -/
theorem Formula.value_eq_truth (v : α → Bool) (f : Formula α) :
    f.value v = f.truth v := by
  induction f with
  | atom a => rfl
  | binary op left right ihl ihr =>
      cases op with
      | and =>
          unfold value truth
          rw [ihl, ihr]
          rfl
      | or =>
          unfold value truth
          rw [ihl, ihr]
          rfl
      | imp =>
          unfold value truth
          rw [ihl, ihr, himp_eq]
          exact Bool.or_comm _ _

-- ============================================================ sequents

variable [HeytingAlgebra H] (v : α → H)

/-- The meet of the values of some formulas. -/
def meet (context : List (Formula α)) : H :=
  (context.map (Formula.value v)).foldr (· ⊓ ·) ⊤

/-- A sequent holds if its hypotheses together are below its goal. -/
def Sequent.Holds (s : Sequent α) : Prop :=
  meet v s.context ≤ s.goal.value v

/-- A state holds if its sequent does; a closed branch has nothing left
to show. -/
def State.Holds : State α → Prop
  | .closed => True
  | .table s => s.Holds v

instance [DecidableLE H] (s : Sequent α) : Decidable (s.Holds v) :=
  inferInstanceAs (Decidable (meet v s.context ≤ s.goal.value v))

instance [DecidableLE H] (state : State α) : Decidable (state.Holds v) :=
  match state with
  | .closed => isTrue trivial
  | .table s => inferInstanceAs (Decidable (s.Holds v))

@[simp] theorem meet_nil : meet v ([] : List (Formula α)) = ⊤ := rfl

@[simp] theorem meet_cons (f : Formula α) (context : List (Formula α)) :
    meet v (f :: context) = f.value v ⊓ meet v context := rfl

@[simp] theorem meet_append (context more : List (Formula α)) :
    meet v (context ++ more) = meet v context ⊓ meet v more := by
  induction context with
  | nil => rw [List.nil_append, meet_nil, top_inf_eq]
  | cons f context ih => rw [List.cons_append, meet_cons, meet_cons, ih, inf_assoc]

/-- The hypotheses together are below each of them. -/
theorem meet_le {context : List (Formula α)} {f : Formula α}
    (hf : f ∈ context) : meet v context ≤ f.value v := by
  induction context with
  | nil => cases hf
  | cons g context ih =>
      rw [meet_cons]
      rcases List.mem_cons.1 hf with rfl | hf
      · exact inf_le_left
      · exact inf_le_right.trans (ih hf)

theorem holds_assume {s : Sequent α} {more : List (Formula α)}
    {goal : Formula α} :
    (s.assume more goal).Holds v ↔
      meet v s.context ⊓ meet v more ≤ goal.value v := by
  show meet v (s.context ++ more) ≤ goal.value v ↔ _
  rw [meet_append]

/-- A goal without hypotheses holds if it is ⊤. -/
theorem holds_ofGoal {goal : Formula α} :
    (State.ofGoal goal).Holds v ↔ goal.value v = ⊤ := by
  show meet v [] ≤ goal.value v ↔ _
  rw [meet_nil, top_le_iff]

-- =============================================================== rules

/-- A rule is sound: what it leaves implies what it was applied to. -/
theorem Sequent.Infers.holds [BEq α] [LawfulBEq α] {s : Sequent α}
    {rule : Rule} {states : List (State α)} (h : s.Infers rule states)
    (hstates : ∀ state ∈ states, state.Holds v) : s.Holds v := by
  unfold Sequent.Holds
  cases h with
  | @implIntro left right hg =>
      have hbody := (holds_assume v).1 (hstates _ (List.mem_singleton_self _))
      rw [meet_cons, meet_nil, inf_top_eq] at hbody
      rw [hg]
      exact le_himp_iff.2 hbody
  | @orIntro1 left right hg =>
      have hleft := (holds_assume v).1 (hstates _ (List.mem_singleton_self _))
      rw [meet_nil, inf_top_eq] at hleft
      rw [hg]
      exact hleft.trans le_sup_left
  | @orIntro2 left right hg =>
      have hright := (holds_assume v).1 (hstates _ (List.mem_singleton_self _))
      rw [meet_nil, inf_top_eq] at hright
      rw [hg]
      exact hright.trans le_sup_right
  | @andIntro left right hg =>
      have hleft := (holds_assume v).1 (hstates _ List.mem_cons_self)
      have hright := (holds_assume v).1
        (hstates _ (List.mem_cons_of_mem _ List.mem_cons_self))
      rw [meet_nil, inf_top_eq] at hleft hright
      rw [hg]
      exact le_inf hleft hright
  | @andElim index left right hh =>
      have hbody := (holds_assume v).1 (hstates _ (List.mem_singleton_self _))
      rw [meet_cons, meet_cons, meet_nil, inf_top_eq] at hbody
      have hpair : meet v s.context ≤ left.value v ⊓ right.value v :=
        meet_le v (hypothesis?_mem hh)
      exact (le_inf le_rfl hpair).trans hbody
  | @orElim index left right hh =>
      have hleft := (holds_assume v).1 (hstates _ List.mem_cons_self)
      have hright := (holds_assume v).1
        (hstates _ (List.mem_cons_of_mem _ List.mem_cons_self))
      rw [meet_cons, meet_nil, inf_top_eq] at hleft hright
      have hcases : meet v s.context ≤ left.value v ⊔ right.value v :=
        meet_le v (hypothesis?_mem hh)
      -- both cases together are what the hypothesis allows
      calc meet v s.context
          ≤ meet v s.context ⊓ (left.value v ⊔ right.value v) :=
            le_inf le_rfl hcases
        _ = meet v s.context ⊓ left.value v
              ⊔ meet v s.context ⊓ right.value v := inf_sup_left _ _ _
        _ ≤ s.goal.value v := sup_le hleft hright
  | @assumption index f hh hsame =>
      rw [← (Formula.same_iff_eq f s.goal).1 hsame]
      exact meet_le v (hypothesis?_mem hh)

end Deduction
