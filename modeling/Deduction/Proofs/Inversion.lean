/-
Safe rules: those that never lose a proof.

Soundness reads a rule downwards: from what it leaves back to where it was
applied. Here rules are read upwards. If a sequent can be closed at all,
can everything be closed that the rule leaves of it? For a rule that takes
a hypothesis apart the answer is weakening, since the context only grows.
For conjunctions and implications in the goal it takes an argument, for
the derivation at hand may begin with something else.

# Inverting a rule of the goal

A derivation takes hypotheses apart for a while, and on each branch it
then does something about the goal or finds it among the hypotheses.
`Derivable.invert` keeps the first part, now for another goal and perhaps
with another hypothesis, and asks only for the second. The new hypothesis
stands before the parts instead of behind them, which is where the
structural rules are needed.

A goal found among the hypotheses is no obstacle if it is a conjunction,
which can be taken apart there. An implication cannot, as no rule uses one.
So assuming its left side is safe only if no hypothesis has an arrow in it
(`Sequent.Safe`), and that is so in the proof of every goal that can be
typed (`Typed.arrowFree`). There only the choice of a side of a
disjunction can go wrong.
-/
import Deduction.Proofs.Display
import Deduction.Proofs.Structural

namespace Deduction

variable {α : Type} [BEq α]

-- =========================================================== inversion

/-- Whether the rule takes a hypothesis apart. -/
def Rule.splits : Rule → Bool
  | .andElim _ | .orElim _ => true
  | _ => false

/-- A rule that takes a hypothesis apart keeps the goal, and adds the parts;
all others do not count here. -/
theorem Sequent.Infers.cases_splits {s : Sequent α} {rule : Rule}
    {states : List (State α)} (h : s.Infers rule states) :
    rule.splits = false
      ∨ (∃ left right, .and left right ∈ s.context
          ∧ states = [s.assume [left, right] s.goal])
      ∨ ∃ left right, .or left right ∈ s.context
          ∧ states = [s.assume [left] s.goal, s.assume [right] s.goal] := by
  cases h with
  | andElim hh => exact Or.inr (Or.inl ⟨_, _, hypothesis?_mem hh, rfl⟩)
  | orElim hh => exact Or.inr (Or.inr ⟨_, _, hypothesis?_mem hh, rfl⟩)
  | implIntro _ | orIntro1 _ | orIntro2 _ | andIntro _ | assumption _ _ =>
      exact Or.inl rfl

/-- What is the same as a connection of two formulas is one of formulas that
are the same as these. -/
theorem Formula.operands_of_same {op : Connective} {f left right : Formula α}
    (h : f.same (.binary op left right) = true) :
    ∃ left' right', f = .binary op left' right'
      ∧ left'.same left = true ∧ right'.same right = true := by
  cases f with
  | atom a => cases h
  | binary op' left' right' =>
      obtain ⟨rfl, hl, hr⟩ := same_binary.1 h
      exact ⟨left', right', rfl, hl, hr⟩

namespace Derivable

variable [PartialEquivBEq α] {context : List (Formula α)}
  {goal : Formula α}

theorem of_subset {context' : List (Formula α)}
    (hsub : ∀ h ∈ context, h ∈ context')
    (h : Derivable (.table ⟨context, goal⟩)) :
    Derivable (.table ⟨context', goal⟩) :=
  h.transfer (.table ⟨rfl, fun f hf => ⟨f, hsub f hf, f.alike_refl⟩⟩)

/-- A derivation of one goal becomes one of another, with more hypotheses,
if every rule that does not take a hypothesis apart can be made up for. -/
theorem invert {goal' : Formula α} {extra : List (Formula α)}
    {P : Formula α → Prop}
    (hparts : ∀ {op left right}, P (.binary op left right) → P left ∧ P right)
    (hgoal : ∀ {context : List (Formula α)} {rule : Rule}
      {states : List (State α)}, (∀ h ∈ context, P h) →
      Sequent.Infers ⟨context, goal⟩ rule states → rule.splits = false →
      (∀ state ∈ states, Derivable state) →
      Derivable (.table ⟨context ++ extra, goal'⟩))
    (hcontext : ∀ h ∈ context, P h)
    (h : Derivable (.table ⟨context, goal⟩)) :
    Derivable (.table ⟨context ++ extra, goal'⟩) := by
  generalize hstate : State.table ⟨context, goal⟩ = state at h
  induction h generalizing context with
  | closed => cases hstate
  | @infer s rule states hinf hall ih =>
      cases hstate
      -- parts stand before the new hypotheses above, and behind them below
      have hswap : ∀ {parts : List (Formula α)}, (∀ f ∈ parts, P f) →
          .table ⟨context ++ parts, goal⟩ ∈ states →
          Derivable (.table ⟨context ++ extra ++ parts, goal'⟩) := by
        intro parts hp hmem
        have hinner := ih _ hmem (List.forall_mem_append.2 ⟨hcontext, hp⟩) rfl
        refine hinner.of_subset fun f hf => ?_
        simp only [List.mem_append] at hf ⊢
        tauto
      rcases hinf.cases_splits with
        hrule | ⟨left, right, hmem, rfl⟩ | ⟨left, right, hmem, rfl⟩
      · exact hgoal hcontext hinf hrule hall
      · obtain ⟨hl, hr⟩ := hparts (hcontext _ hmem)
        exact .andElim (List.mem_append_left _ hmem)
          (hswap (by simp [hl, hr]) List.mem_cons_self)
      · obtain ⟨hl, hr⟩ := hparts (hcontext _ hmem)
        exact .orElim (List.mem_append_left _ hmem)
          (hswap (by simp [hl]) List.mem_cons_self)
          (hswap (by simp [hr]) (List.mem_cons_of_mem _ List.mem_cons_self))

/-- Both sides of a derivable conjunction are derivable. -/
theorem operand {left right side : Formula α} (hside : side ∈ [left, right])
    (h : Derivable (.table ⟨context, .and left right⟩)) :
    Derivable (.table ⟨context, side⟩) := by
  have key : Derivable (.table ⟨context ++ [], side⟩) := by
    refine h.invert (P := fun _ => True) (fun _ => ⟨trivial, trivial⟩) ?_
      (fun _ _ => trivial)
    intro context rule states _ hinf hrule hall
    cases hinf with
    | implIntro hg => cases hg
    | orIntro1 hg => cases hg
    | orIntro2 hg => cases hg
    | andElim _ => cases hrule
    | orElim _ => cases hrule
    | andIntro hg =>
        cases hg
        apply hall
        simpa [Sequent.assume] using hside
    | assumption hh hsame =>
        -- the conjunction is a hypothesis, and taken apart there
        obtain ⟨left', right', rfl, hl, hr⟩ := Formula.operands_of_same hsame
        have hmem : .and left' right' ∈ context :=
          Sequent.hypothesis?_mem hh
        rw [List.append_nil]
        apply Derivable.andElim hmem
        rcases List.mem_pair.1 hside with rfl | rfl
        · exact .assumption (by simp) hl
        · exact .assumption (by simp) hr
  rwa [List.append_nil] at key

/-- The right side of a derivable implication is derivable from the left,
if no hypothesis has an arrow in it. -/
theorem body {left right : Formula α}
    (hfree : ∀ h ∈ context, h.ArrowFree)
    (h : Derivable (.table ⟨context, .imp left right⟩)) :
    Derivable (.table ⟨context ++ [left], right⟩) := by
  refine h.invert (P := Formula.ArrowFree)
    (fun hf => (Formula.arrowFree_binary.1 hf).2) ?_ hfree
  intro context rule states hfree hinf hrule hall
  cases hinf with
  | orIntro1 hg => cases hg
  | orIntro2 hg => cases hg
  | andIntro hg => cases hg
  | andElim _ => cases hrule
  | orElim _ => cases hrule
  | implIntro hg =>
      cases hg
      exact hall _ List.mem_cons_self
  | assumption hh hsame =>
      -- an implication among the hypotheses could not be used
      obtain ⟨left', right', rfl, -, -⟩ := Formula.operands_of_same hsame
      have hmem : .imp left' right' ∈ context := Sequent.hypothesis?_mem hh
      exact absurd rfl (Formula.arrowFree_binary.1 (hfree _ hmem)).1

end Derivable

-- =========================================================== safe rules

/-- The rules that can be inverted at a sequent. -/
def Sequent.Safe (s : Sequent α) : Rule → Prop
  | .andIntro | .andElim _ | .orElim _ | .assumption _ => True
  | .implIntro => ∀ h ∈ s.context, h.ArrowFree
  | .orIntro1 | .orIntro2 => False

/-- A safe rule leaves derivable states of a derivable sequent. -/
theorem Sequent.Infers.derivable_iff [PartialEquivBEq α] {s : Sequent α}
    {rule : Rule} {states : List (State α)} (hinf : s.Infers rule states)
    (hsafe : s.Safe rule) :
    Derivable (.table s) ↔ ∀ state ∈ states, Derivable state := by
  refine ⟨fun h => ?_, .infer hinf⟩
  have hgrow : ∀ more, Derivable (s.assume more s.goal) := fun more =>
    h.of_subset fun f hf => List.mem_append_left more hf
  cases hinf with
  | orIntro1 _ => cases hsafe
  | orIntro2 _ => cases hsafe
  | andElim _ => simpa using hgrow _
  | orElim _ => simpa using And.intro (hgrow _) (hgrow _)
  | assumption _ _ => simpa using Derivable.closed
  | implIntro hg =>
      obtain ⟨context, goal⟩ := s
      cases hg
      simpa [Sequent.assume] using h.body hsafe
  | andIntro hg =>
      obtain ⟨context, goal⟩ := s
      cases hg
      simpa [Sequent.assume] using
        And.intro (h.operand (by simp)) (h.operand (by simp))

theorem Sequent.closable_iff [PartialEquivBEq α] {s : Sequent α}
    {rule : Rule} (hsafe : s.Safe rule) (haccepted : s.refine rule ≠ []) :
    State.Closable (.table s) ↔ ∀ state ∈ s.refine rule, state.Closable := by
  simp only [State.closable_iff_derivable]
  exact (infers_refine haccepted).derivable_iff hsafe

/-- The rule is accepted at a sequent that can be closed, and leaves
something that cannot. -/
def Sequent.Loses (s : Sequent α) (rule : Rule) : Prop :=
  State.Closable (.table s) ∧ ∃ state ∈ s.refine rule, ¬ state.Closable

/-- Without arrows among the hypotheses, only choosing a side of a
disjunction loses a proof. -/
theorem Sequent.Loses.rule_eq [PartialEquivBEq α] {s : Sequent α}
    {rule : Rule} (h : s.Loses rule) (hfree : ∀ f ∈ s.context, f.ArrowFree) :
    rule = .orIntro1 ∨ rule = .orIntro2 := by
  obtain ⟨hclosable, state, hmem, hlost⟩ := h
  have hunsafe : ¬ s.Safe rule := by
    intro hsafe
    exact hlost ((closable_iff hsafe (List.ne_nil_of_mem hmem)).1 hclosable
      state hmem)
  cases rule with
  | orIntro1 => exact Or.inl rfl
  | orIntro2 => exact Or.inr rfl
  | implIntro => exact absurd hfree hunsafe
  | andIntro => exact absurd trivial hunsafe
  | andElim index => exact absurd trivial hunsafe
  | orElim index => exact absurd trivial hunsafe
  | assumption index => exact absurd trivial hunsafe

/-- No rule uses an implication, so there is nothing to be done here. -/
theorem Sequent.not_closable_detached [LawfulBEq α] {a b : α} (hab : a ≠ b) :
    ¬ State.Closable
      (.table ⟨[.imp (.atom a) (.atom b), .atom a], .atom b⟩) := by
  rw [State.closable_iff_derivable]
  intro h
  cases h with
  | infer hinf _ =>
      cases hinf with
      | implIntro hg => cases hg
      | orIntro1 hg => cases hg
      | orIntro2 hg => cases hg
      | andIntro hg => cases hg
      | andElim hh => simpa using hypothesis?_mem hh
      | orElim hh => simpa using hypothesis?_mem hh
      | assumption hh hsame =>
          have hmem := hypothesis?_mem hh
          rw [(Formula.same_iff_eq _ _).1 hsame] at hmem
          simp [Ne.symm hab] at hmem

-- ========================================================= typed goals

/-- What can be closed holds. -/
theorem State.Closable.holds [LawfulBEq α] {H : Type} [HeytingAlgebra H]
    (v : α → H) {state : State α} (h : state.Closable) : state.Holds v := by
  have hd := State.closable_iff_derivable.1 h
  clear h
  induction hd with
  | closed => trivial
  | infer hinf _ ih => exact hinf.holds v ih

namespace ProofTree

omit [BEq α] in
/-- In a shaped goal what becomes a hypothesis has no arrow, and this is
handed down. -/
theorem handedDown_shaped :
    HandedDown (@Formula.ArrowFree α) (·.isShaped = true) where
  arrow h := by
    obtain ⟨himp, -, hl, hr⟩ := Formula.isShaped_binary.1 h
    exact ⟨Formula.arrowFree_of_not_isImp hl himp, hr⟩
  goal h _ := (Formula.isShaped_binary.1 h).2.2
  hypothesis h _ := (Formula.arrowFree_binary.1 h).2

/-- No hypothesis in the proof of a typed goal has an arrow in it. -/
theorem Typed.arrowFree {limit : Nat} {n : ProofTree Atom}
    {s : Sequent Atom} (hn : Typed limit n) (hs : n.state = .table s) :
    ∀ h ∈ s.context, h.ArrowFree := by
  have hobeys := hn.inherits handedDown_shaped fun hparse =>
    (Goal.isCanonical_iff.1 (Goal.isCanonical_of_parse hparse).1).1
  rw [hs] at hobeys
  exact hobeys.1

/-- A disjunction, from itself. -/
def kept : Goal :=
  .imp (.or (.atom (.var "A")) (.atom (.var "B")))
    (.or (.atom (.var "A")) (.atom (.var "B")))

/-- What is left of it after the first rule. -/
def keptBody : Sequent Atom where
  context := [.or (.atom (.var "A")) (.atom (.var "B"))]
  goal := .or (.atom (.var "A")) (.atom (.var "B"))

theorem typed_keptBody :
    ∃ n, Typed 1 n ∧ n.state = .table keptBody := by
  have hparse : Goal.parse 1 kept.text = .ok kept :=
    Goal.parse_text (by decide) (by decide) (by decide)
  exact ⟨_, ⟨kept.text, kept, 1, [.move (.array []) (.rule .implIntro)], [0],
    hparse, rfl⟩, rfl⟩

theorem closable_keptBody : State.Closable (.table keptBody) :=
  ⟨[(.array [], .assumption (.int 0))], _, rfl, rfl⟩

/-- The disjunction is a hypothesis, but neither of its sides follows. -/
theorem loses_keptBody {rule : Rule}
    (h : rule = .orIntro1 ∨ rule = .orIntro2) : keptBody.Loses rule := by
  refine ⟨closable_keptBody, ?_⟩
  rcases h with rfl | rfl
  · refine ⟨_, List.mem_cons_self, fun hclosable => ?_⟩
    have hholds := hclosable.holds (fun a => a == Atom.var "B")
    revert hholds
    decide
  · refine ⟨_, List.mem_cons_self, fun hclosable => ?_⟩
    have hholds := hclosable.holds (fun a => a == Atom.var "A")
    revert hholds
    decide

/-- A safe rule that is accepted leaves only what can be closed, just if
the sequent can be. In the proof of a goal that can be typed no hypothesis
has an arrow in it, and the rules that lose a proof there are the two that
choose a side of a disjunction. -/
theorem safe_rules_invert :
    (∀ (α : Type) [BEq α] [PartialEquivBEq α] (s : Sequent α) (rule : Rule),
      s.Safe rule → s.refine rule ≠ [] →
      (State.Closable (.table s)
        ↔ ∀ state ∈ s.refine rule, state.Closable))
    ∧ (∀ (limit : Nat) (n : ProofTree Atom) (s : Sequent Atom),
      Typed limit n → n.state = .table s → ∀ h ∈ s.context, h.ArrowFree)
    ∧ ∀ rule : Rule,
      (∃ limit n s, Typed limit n ∧ n.state = .table s ∧ s.Loses rule)
        ↔ rule = .orIntro1 ∨ rule = .orIntro2 := by
  refine ⟨?_, ?_, fun rule => ⟨?_, ?_⟩⟩
  · intro α _ _ s rule hsafe haccepted
    exact Sequent.closable_iff hsafe haccepted
  · intro limit n s hn hs
    exact hn.arrowFree hs
  · rintro ⟨limit, n, s, hn, hs, hloses⟩
    exact hloses.rule_eq (hn.arrowFree hs)
  · intro hrule
    obtain ⟨n, hn, hs⟩ := typed_keptBody
    exact ⟨1, n, keptBody, hn, hs, loses_keptBody hrule⟩

/-- A sequent that can be closed by looking at the hypothesis first. -/
def hasty : Sequent Atom where
  context := [.and (.atom (.var "A")) (.atom (.var "B"))]
  goal := .imp (.atom (.var "C")) (.atom (.var "B"))

/-- The same shape of goal, with an arrow among the hypotheses. -/
def arrowed : Sequent Atom where
  context := [.imp (.atom (.var "A")) (.atom (.var "B"))]
  goal := .imp (.atom (.var "A")) (.atom (.var "B"))

/-- Closing the first sequent begins with its hypothesis, but its goal may
be worked on first as well. At the second sequent that is not safe, and a
proof is lost. In the proof of a typed goal the loss is by a disjunction. -/
theorem safe_rules_invert_hasty :
    hasty.Safe .implIntro ∧ hasty.refine .implIntro ≠ []
      ∧ State.Closable (.table hasty)
      ∧ (∀ state ∈ hasty.refine .implIntro, state.Closable)
      ∧ ¬ arrowed.Safe .implIntro ∧ arrowed.Loses .implIntro
      ∧ (∀ h ∈ keptBody.context, h.ArrowFree)
      ∧ ∃ limit n s, Typed limit n ∧ n.state = .table s
          ∧ s.Loses .orIntro2 := by
  obtain ⟨hinvert, hfree, hloses⟩ := safe_rules_invert
  have hsafe : hasty.Safe .implIntro := by
    simp [Sequent.Safe, hasty, Formula.ArrowFree, Formula.pairs]
  have haccepted : hasty.refine .implIntro ≠ [] := List.cons_ne_nil _ _
  have hclosable : State.Closable (.table hasty) :=
    ⟨[(.array [], .andElim (.int 0)), (.array [.int 0], .implIntro),
      (.array [.int 0, .int 0], .assumption (.int 2))], _, rfl, rfl⟩
  have hlost : arrowed.Loses .implIntro :=
    ⟨⟨[(.array [], .assumption (.int 0))], _, rfl, rfl⟩, _,
      List.mem_cons_self, Sequent.not_closable_detached (by decide)⟩
  have hunsafe : ¬ arrowed.Safe .implIntro := by
    simp [Sequent.Safe, arrowed, Formula.ArrowFree, Formula.pairs]
  obtain ⟨n, hn, hs⟩ := typed_keptBody
  exact ⟨hsafe, haccepted, hclosable,
    (hinvert Atom hasty .implIntro hsafe haccepted).1 hclosable,
    hunsafe, hlost, hfree 1 n keptBody hn hs,
    (hloses .orIntro2).2 (Or.inr rfl)⟩

end ProofTree

end Deduction
