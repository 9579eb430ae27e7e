/-
What rules hand down.

A rule looks at the goal or at one hypothesis, and the formulas it puts
into the states it leaves are operands of that formula. A property of
formulas that passes to operands is therefore handed down through a whole
tree. Hypotheses and goals may have different properties: an arrow in the
goal is the one place where a part of a goal turns into a hypothesis.
-/
import Deduction.Proofs.Run

namespace Deduction

variable {α : Type}

/-- Two properties, of hypotheses and of goals, that pass to the operands
which rules take out. -/
structure HandedDown (P Q : Formula α → Prop) : Prop where
  arrow {left right : Formula α} : Q (.imp left right) → P left ∧ Q right
  goal {op : Connective} {left right : Formula α} :
    Q (.binary op left right) → op ≠ .imp → Q left ∧ Q right
  hypothesis {op : Connective} {left right : Formula α} :
    P (.binary op left right) → op ≠ .imp → P left ∧ P right

/-- A property that passes to all operands may stand for both. -/
theorem HandedDown.of_operands {P : Formula α → Prop}
    (h : ∀ {op left right}, P (.binary op left right) → P left ∧ P right) :
    HandedDown P P where
  arrow := h
  goal hg _ := h hg
  hypothesis hh _ := h hh

/-- The hypotheses have the one property and the goal has the other. -/
def Sequent.Obeys (P Q : Formula α → Prop) (s : Sequent α) : Prop :=
  (∀ h ∈ s.context, P h) ∧ Q s.goal

def State.Obeys (P Q : Formula α → Prop) : State α → Prop
  | .closed => True
  | .table s => s.Obeys P Q

variable {P Q : Formula α → Prop}

theorem Sequent.Obeys.assume {s : Sequent α} (hs : s.Obeys P Q)
    {more : List (Formula α)} {goal : Formula α} (hmore : ∀ h ∈ more, P h)
    (hgoal : Q goal) : (s.assume more goal).Obeys P Q :=
  ⟨List.forall_mem_append.2 ⟨hs.1, hmore⟩, hgoal⟩

variable [BEq α]

/-- One rule hands the properties down to each state it leaves. -/
theorem Sequent.Infers.obeys (hd : HandedDown P Q) {s : Sequent α}
    {rule : Rule} {states : List (State α)} (h : s.Infers rule states)
    (hs : s.Obeys P Q) : ∀ state ∈ states, state.Obeys P Q := by
  cases h with
  | @implIntro left right hg =>
      have hgoal := hs.2
      rw [hg] at hgoal
      obtain ⟨hleft, hright⟩ := hd.arrow hgoal
      simpa using hs.assume (by simpa using hleft) hright
  | @orIntro1 left right hg =>
      have hgoal := hs.2
      rw [hg] at hgoal
      simpa using hs.assume (by simp) (hd.goal hgoal nofun).1
  | @orIntro2 left right hg =>
      have hgoal := hs.2
      rw [hg] at hgoal
      simpa using hs.assume (by simp) (hd.goal hgoal nofun).2
  | @andIntro left right hg =>
      have hgoal := hs.2
      rw [hg] at hgoal
      obtain ⟨hleft, hright⟩ := hd.goal hgoal nofun
      simpa using
        And.intro (hs.assume (by simp) hleft) (hs.assume (by simp) hright)
  | @andElim index left right hh =>
      have hparts := hd.hypothesis (hs.1 _ (hypothesis?_mem hh)) nofun
      simpa using hs.assume (by simpa using hparts) hs.2
  | @orElim index left right hh =>
      obtain ⟨hleft, hright⟩ :=
        hd.hypothesis (hs.1 _ (hypothesis?_mem hh)) nofun
      simpa using And.intro (hs.assume (by simpa using hleft) hs.2)
        (hs.assume (by simpa using hright) hs.2)
  | assumption hh hsame => simp [State.Obeys]

/-- What every rule hands down to the states it leaves, a faithful tree
hands down from its root to every node. -/
theorem ProofTree.Faithful.inherits {R : State α → Prop}
    (hR : ∀ {s : Sequent α} {rule : Rule} {states : List (State α)},
      s.Infers rule states → R (.table s) → ∀ state ∈ states, R state)
    {t n : ProofTree α} (hf : Faithful t) (ht : R t.state) {path : Path}
    (hget : t.get? path = some n) : R n.state := by
  induction path generalizing t with
  | nil =>
      rw [get?_nil] at hget
      injection hget with hget
      rw [← hget]
      exact ht
  | cons i path ih =>
      obtain ⟨child, hchild, hrest⟩ := get?_cons_iff.1 hget
      cases hf with
      | leaf state => cases hchild
      | @node s rule children hinf hall =>
          have hmem : child ∈ children := List.mem_of_getElem? hchild
          have hstate : R child.state :=
            hR hinf ht child.state (List.mem_map_of_mem hmem)
          exact ih (hall child hmem) hstate hrest

/-- A goal hands its property down to all trees that steps lead to. There
are no hypotheses at the start. -/
theorem ProofTree.Reaches.obeys (hd : HandedDown P Q) {goal : Formula α}
    (hgoal : Q goal) {t n : ProofTree α} (h : Reaches (ofGoal goal) t)
    {path : Path} (hget : t.get? path = some n) : n.state.Obeys P Q := by
  have hf : Faithful t := faithful_of_reaches (.leaf _) h
  refine hf.inherits (fun hinf hs => hinf.obeys hd hs) ?_ hget
  rw [state_of_reaches h]
  exact ⟨(fun _ hmem => nomatch hmem), hgoal⟩

end Deduction
