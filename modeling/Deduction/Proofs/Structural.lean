/-
The structural rules: order, repetition and surplus of hypotheses do not
matter.

None of them is a rule of the prover, and its rules name hypotheses by
number, so a script for one context is no script for another. What
carries over is the derivation. Each rule accepted at a sequent has a
counterpart at every sequent with the same goal and at least the same
hypotheses, with a number of its own, and the two leave states that are
related in the same way (`Infers.transfer`). Both contexts grow by the
same formulas at their ends, so the relation is kept however different
the numbers are. By induction the whole derivation carries over, and a
derivation is as good as a script (`closable_iff_derivable`).

Hypotheses are compared by sameness, which need not hold between a
formula and itself when leaves are of foreign make. A formula that rules
put into both contexts is therefore only `Alike` to itself.
-/
import Deduction.Proofs.Script
import Deduction.Proofs.Soundness

namespace Deduction

variable {α : Type} [BEq α]

-- ============================================================== closing

/-- Some rules, applied one after the other at nodes named by their paths,
give a tree without open goals. Steps that are refused change nothing and
are left out. -/
def State.Closable (state : State α) : Prop :=
  ∃ script t, (ProofTree.leaf state).replay script = some t
    ∧ t.proved = true

/-- A proved tree is a derivation of its root. -/
theorem ProofTree.Faithful.derivable_of_proved {t : ProofTree α}
    (hf : Faithful t) (hp : t.proved = true) : Derivable t.state := by
  induction hf with
  | leaf state =>
      cases state with
      | closed => exact .closed
      | table s => cases hp
  | @node s rule children hinf hall ih =>
      unfold proved at hp
      rw [Bool.and_eq_true] at hp
      refine .infer hinf fun state hstate => ?_
      obtain ⟨child, hmem, rfl⟩ := List.mem_map.1 hstate
      exact ih child hmem (proved_of_allProved hp.2 hmem)

/-- A script that closes a state is a derivation of it. -/
theorem State.closable_iff_derivable {state : State α} :
    state.Closable ↔ Derivable state := by
  constructor
  · rintro ⟨script, t, hreplay, hproved⟩
    have hreach := ProofTree.reaches_of_replay .refl hreplay
    have hf : ProofTree.Faithful t :=
      ProofTree.faithful_of_reaches (.leaf _) hreach
    have hroot : t.state = state := ProofTree.state_of_reaches hreach
    rw [← hroot]
    exact hf.derivable_of_proved hproved
  · exact Derivable.exists_script

-- =============================================================== alike

namespace Formula

/-- The same formula, or one that is the same. -/
def Alike (f g : Formula α) : Prop := f = g ∨ f.same g = true

theorem alike_refl (f : Formula α) : f.Alike f := Or.inl rfl

/-- What is alike to a connection is a connection of what is alike to its
operands. -/
theorem Alike.operands {op : Connective} {left right g : Formula α}
    (h : (binary op left right).Alike g) :
    ∃ left' right', g = binary op left' right' ∧ left.Alike left'
      ∧ right.Alike right' := by
  rcases h with rfl | h
  · exact ⟨left, right, rfl, alike_refl left, alike_refl right⟩
  · cases g with
    | atom a => cases h
    | binary op' left' right' =>
        obtain ⟨rfl, hl, hr⟩ := same_binary.1 h
        exact ⟨left', right', rfl, Or.inr hl, Or.inr hr⟩

theorem Alike.same [PartialEquivBEq α] {f g goal : Formula α}
    (h : f.Alike g) (hgoal : f.same goal = true) : g.same goal = true := by
  rcases h with rfl | h
  · exact hgoal
  · exact same_trans (same_symm h) hgoal

end Formula

-- ============================================================= carrying

namespace Sequent

/-- The second sequent has the goal of the first, and for each of its
hypotheses one that is alike. -/
structure Within (s s' : Sequent α) : Prop where
  goal : s'.goal = s.goal
  context : ∀ h ∈ s.context, ∃ k ∈ s'.context, h.Alike k

end Sequent

inductive State.Within : State α → State α → Prop where
  | closed : Within .closed .closed
  | table {s s' : Sequent α} : s.Within s' → Within (.table s) (.table s')

namespace Sequent

variable {s s' : Sequent α}

theorem Within.hypothesis? (h : s.Within s') {index : Value} {f : Formula α}
    (hf : s.hypothesis? index = some f) :
    ∃ i k, s'.hypothesis? (.ofNat i) = some k ∧ f.Alike k := by
  obtain ⟨k, hk, halike⟩ := h.context f (hypothesis?_mem hf)
  obtain ⟨i, hi⟩ := exists_hypothesis? hk
  exact ⟨i, k, hi, halike⟩

/-- Formulas that are alike may be put at the ends of both contexts. -/
theorem Within.assume (h : s.Within s') {more more' : List (Formula α)}
    (hmore : ∀ f ∈ more, ∃ k ∈ more', f.Alike k) (goal : Formula α) :
    (s.assume more goal).Within (s'.assume more' goal) := by
  refine .table ⟨rfl, List.forall_mem_append.2 ⟨?_, ?_⟩⟩
  · intro f hf
    obtain ⟨k, hk, halike⟩ := h.context f hf
    exact ⟨k, List.mem_append_left _ hk, halike⟩
  · intro f hf
    obtain ⟨k, hk, halike⟩ := hmore f hf
    exact ⟨k, List.mem_append_right _ hk, halike⟩

/-- Each rule has a counterpart at a sequent with more hypotheses, and
whatever that one leaves has been left here with fewer. -/
theorem Infers.transfer [PartialEquivBEq α] (h : s.Within s') {rule : Rule}
    {states : List (State α)} (hinf : s.Infers rule states) :
    ∃ rule' states', s'.Infers rule' states'
      ∧ ∀ state' ∈ states', ∃ state ∈ states, state.Within state' := by
  have hgoal := h.goal
  cases hinf with
  | @implIntro left right hg =>
      refine ⟨_, _, .implIntro (hgoal.trans hg), ?_⟩
      simpa using h.assume (by simpa using left.alike_refl) right
  | @orIntro1 left right hg =>
      refine ⟨_, _, .orIntro1 (hgoal.trans hg), ?_⟩
      simpa using h.assume (by simp) left
  | @orIntro2 left right hg =>
      refine ⟨_, _, .orIntro2 (hgoal.trans hg), ?_⟩
      simpa using h.assume (by simp) right
  | @andIntro left right hg =>
      refine ⟨_, _, .andIntro (hgoal.trans hg), ?_⟩
      have hleft : (s.assume [] left).Within (s'.assume [] left) :=
        h.assume (by simp) left
      have hright : (s.assume [] right).Within (s'.assume [] right) :=
        h.assume (by simp) right
      simp [hleft, hright]
  | andElim hh =>
      obtain ⟨i, k, hi, halike⟩ := h.hypothesis? hh
      obtain ⟨left', right', rfl, hl, hr⟩ := halike.operands
      refine ⟨_, _, .andElim hi, ?_⟩
      rw [hgoal]
      simpa using h.assume (by simp [hl, hr]) s.goal
  | @orElim index left right hh =>
      obtain ⟨i, k, hi, halike⟩ := h.hypothesis? hh
      obtain ⟨left', right', rfl, hl, hr⟩ := halike.operands
      refine ⟨_, _, .orElim hi, ?_⟩
      have hleft : (s.assume [left] s.goal).Within
          (s'.assume [left'] s.goal) := h.assume (by simpa using hl) s.goal
      have hright : (s.assume [right] s.goal).Within
          (s'.assume [right'] s.goal) := h.assume (by simpa using hr) s.goal
      rw [hgoal]
      simp [hleft, hright]
  | assumption hh hsame =>
      obtain ⟨i, k, hi, halike⟩ := h.hypothesis? hh
      rw [← hgoal] at hsame
      refine ⟨_, _, .assumption hi (halike.same hsame), ?_⟩
      simpa using State.Within.closed

end Sequent

/-- A derivation carries over to more hypotheses. -/
theorem Derivable.transfer [PartialEquivBEq α] {state state' : State α}
    (hd : Derivable state) (h : state.Within state') : Derivable state' := by
  induction hd generalizing state' with
  | closed => cases h; exact .closed
  | infer hinf _ ih =>
      cases h with
      | table h =>
          obtain ⟨rule', states', hinf', hstates⟩ := hinf.transfer h
          refine .infer hinf' fun after' hafter' => ?_
          obtain ⟨after, hafter, hwithin⟩ := hstates after' hafter'
          exact ih after hafter hwithin

/-- Weakening, exchange and contraction in one: a sequent stays closable
when each of its hypotheses is the same as one of the new ones, in any
order, with any repetitions and whatever else there is. -/
theorem Sequent.closable_of_covered [PartialEquivBEq α]
    {context context' : List (Formula α)} {goal : Formula α}
    (hcovered : ∀ h ∈ context, ∃ k ∈ context', h.same k = true)
    (hclosable : State.Closable (.table ⟨context, goal⟩)) :
    State.Closable (.table ⟨context', goal⟩) := by
  have hwithin : Sequent.Within ⟨context, goal⟩ ⟨context', goal⟩ := by
    refine ⟨rfl, fun h hh => ?_⟩
    obtain ⟨k, hk, hsame⟩ := hcovered h hh
    exact ⟨k, hk, Or.inr hsame⟩
  rw [State.closable_iff_derivable] at hclosable ⊢
  exact hclosable.transfer (.table hwithin)

/-- Three hypotheses, one of them twice. -/
def Sequent.stacked : Sequent Atom where
  context := [.or (.atom (.var "A")) (.atom (.var "B")), .atom (.const 0),
    .or (.atom (.var "A")) (.atom (.var "B"))]
  goal := .or (.atom (.var "B")) (.atom (.var "A"))

/-- The same in another order, once each, behind a new one. -/
def Sequent.shuffled : Sequent Atom where
  context := [.atom (.var "C"), .or (.atom (.var "A")) (.atom (.var "B")),
    .atom (.const 0)]
  goal := .or (.atom (.var "B")) (.atom (.var "A"))

/-- By cases on hypothesis 2 the first sequent is closed. Those rules do
not apply to the second, where number 2 is a constant, but it is closable
as well. -/
theorem Sequent.closable_of_covered_shuffled :
    (∀ h ∈ stacked.context, ∃ k ∈ shuffled.context, h.same k = true)
      ∧ State.Closable (.table stacked)
      ∧ shuffled.refine (.orElim (.int 2)) = []
      ∧ State.Closable (.table shuffled) := by
  have hcovered : ∀ h ∈ stacked.context,
      ∃ k ∈ shuffled.context, h.same k = true := by decide
  have hclosable : State.Closable (.table stacked) :=
    ⟨[(.array [], .orElim (.int 2)),
      (.array [.int 0], .orIntro2),
      (.array [.int 0, .int 0], .assumption (.int 3)),
      (.array [.int 1], .orIntro1),
      (.array [.int 1, .int 0], .assumption (.int 3))], _, rfl, rfl⟩
  exact ⟨hcovered, hclosable, rfl, closable_of_covered hcovered hclosable⟩

end Deduction
