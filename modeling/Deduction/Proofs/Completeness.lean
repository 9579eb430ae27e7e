/-
Completeness for the goals that can be typed.

There is no rule that uses an implication among the hypotheses. None is
missed: what is typed has no brackets, so no left operand of an arrow
holds another arrow, and the hypotheses of a proof are such left operands
and parts of them.

Let the hypotheses be free of arrows. Taking a hypothesis apart, by
conjunctions and by cases, leaves contexts in which enough atoms stand
for it to be true when just the atoms that are present are true
(`derivable_of_split`). If the context implies the goal for every
valuation, then after all hypotheses have been taken apart the goal is
true under that one valuation, and a true goal without arrows can be put
together from the atoms that are present (`derivable_of_present`).
-/
import Deduction.Proofs.RoundTrip
import Deduction.Proofs.Script
import Deduction.Proofs.Soundness

namespace Deduction

variable {α : Type}

-- ============================================================ valuations

namespace Formula

theorem truth_and {v : α → Bool} {left right : Formula α} :
    (and left right).truth v = true ↔
      left.truth v = true ∧ right.truth v = true := by
  rw [truth, Bool.and_eq_true]

theorem truth_or {v : α → Bool} {left right : Formula α} :
    (or left right).truth v = true ↔
      left.truth v = true ∨ right.truth v = true := by
  rw [truth, Bool.or_eq_true]

theorem truth_imp {v : α → Bool} {left right : Formula α} :
    (imp left right).truth v = true ↔
      (left.truth v = true → right.truth v = true) := by
  rw [truth]
  cases left.truth v <;> simp

/-- Without arrows, more true atoms make more formulas true. -/
theorem ArrowFree.truth_mono {f : Formula α} (hf : f.ArrowFree)
    {v w : α → Bool} (hvw : ∀ a, v a = true → w a = true)
    (h : f.truth v = true) : f.truth w = true := by
  induction f with
  | atom a => exact hvw a h
  | binary op left right ihl ihr =>
      obtain ⟨hop, hl, hr⟩ := arrowFree_binary.1 hf
      cases op with
      | and =>
          obtain ⟨hleft, hright⟩ := truth_and.1 h
          exact truth_and.2 ⟨ihl hl hleft, ihr hr hright⟩
      | or => exact truth_or.2 ((truth_or.1 h).imp (ihl hl) (ihr hr))
      | imp => exact absurd rfl hop

end Formula

variable [BEq α] [LawfulBEq α]

/-- The valuation that makes true just the atoms among the hypotheses. -/
def present (context : List (Formula α)) (a : α) : Bool :=
  decide (Formula.atom a ∈ context)

theorem present_append {context : List (Formula α)} {a : α}
    (more : List (Formula α)) (h : present context a = true) :
    present (context ++ more) a = true :=
  decide_eq_true (List.mem_append_left more (of_decide_eq_true h))

-- ============================================================= deriving

/-- A formula without arrows that is true of the atoms that are present
can be put together from them. -/
theorem derivable_of_present {context : List (Formula α)} {f : Formula α}
    (hf : f.ArrowFree) (h : f.truth (present context) = true) :
    Derivable (.table ⟨context, f⟩) := by
  induction f with
  | atom a =>
      have hmem : Formula.atom a ∈ context := of_decide_eq_true h
      exact .assumption hmem ((Formula.same_iff_eq _ _).2 rfl)
  | binary op left right ihl ihr =>
      obtain ⟨hop, hl, hr⟩ := Formula.arrowFree_binary.1 hf
      -- no rule for these goals changes the context
      have hkeep : ∀ g : Formula α, Derivable (.table ⟨context, g⟩) →
          Derivable
            (Sequent.assume ⟨context, .binary op left right⟩ [] g) := by
        intro g hg
        rw [Sequent.assume, List.append_nil]
        exact hg
      cases op with
      | and =>
          obtain ⟨hleft, hright⟩ := Formula.truth_and.1 h
          exact .two (.andIntro rfl) (hkeep left (ihl hl hleft))
            (hkeep right (ihr hr hright))
      | or =>
          rcases Formula.truth_or.1 h with hleft | hright
          · exact .one (.orIntro1 rfl) (hkeep left (ihl hl hleft))
          · exact .one (.orIntro2 rfl) (hkeep right (ihr hr hright))
      | imp => exact absurd rfl hop

/-- To derive a goal, a hypothesis may be taken apart until the atoms
that are present make it true. -/
theorem derivable_of_split {goal h : Formula α} (hh : h.ArrowFree)
    {context : List (Formula α)} (hmem : h ∈ context)
    (hgoal : ∀ more, h.truth (present (context ++ more)) = true →
      Derivable (.table ⟨context ++ more, goal⟩)) :
    Derivable (.table ⟨context, goal⟩) := by
  -- the context grows on the way down, so the induction is over all of them
  induction h generalizing context with
  | atom a =>
      have hderived := hgoal [] (decide_eq_true (List.mem_append_left [] hmem))
      rw [List.append_nil] at hderived
      exact hderived
  | binary op left right ihl ihr =>
      obtain ⟨hop, hl, hr⟩ := Formula.arrowFree_binary.1 hh
      cases op with
      | and =>
          -- first the left part and, in what comes of it, the right part
          refine .andElim hmem (ihl hl (by simp) fun more hleft => ?_)
          refine ihr hr (by simp) fun more' hright => ?_
          have hboth := Formula.truth_and.2
            ⟨hl.truth_mono (fun _ => present_append more') hleft, hright⟩
          rw [List.append_assoc, List.append_assoc] at hboth ⊢
          exact hgoal _ hboth
      | or =>
          refine .orElim hmem (ihl hl (by simp) fun more hleft => ?_)
            (ihr hr (by simp) fun more hright => ?_)
          · rw [List.append_assoc] at hleft ⊢
            exact hgoal _ (Formula.truth_or.2 (Or.inl hleft))
          · rw [List.append_assoc] at hright ⊢
            exact hgoal _ (Formula.truth_or.2 (Or.inr hright))
      | imp => exact absurd rfl hop

/-- Several hypotheses may be taken apart, one after the other. -/
theorem derivable_of_splits {goal : Formula α} (hs : List (Formula α))
    (hfree : ∀ h ∈ hs, h.ArrowFree) {context : List (Formula α)}
    (hmem : ∀ h ∈ hs, h ∈ context)
    (hgoal : ∀ more, (∀ h ∈ hs, h.truth (present (context ++ more)) = true) →
      Derivable (.table ⟨context ++ more, goal⟩)) :
    Derivable (.table ⟨context, goal⟩) := by
  induction hs generalizing context with
  | nil =>
      have hderived := hgoal [] (fun h hh => nomatch hh)
      rw [List.append_nil] at hderived
      exact hderived
  | cons h hs ih =>
      obtain ⟨hh, hfree⟩ := List.forall_mem_cons.1 hfree
      obtain ⟨hhmem, hmem⟩ := List.forall_mem_cons.1 hmem
      refine derivable_of_split hh hhmem fun more htrue => ?_
      refine ih hfree (fun g hg => List.mem_append_left _ (hmem g hg))
        fun more' htrues => ?_
      have hall : ∀ g ∈ h :: hs,
          g.truth (present (context ++ more ++ more')) = true :=
        List.forall_mem_cons.2
          ⟨hh.truth_mono (fun _ => present_append more') htrue, htrues⟩
      rw [List.append_assoc] at hall ⊢
      exact hgoal _ hall

/-- A goal is derivable if it is true wherever the hypotheses are, none of
them having an arrow. -/
theorem derivable_of_implied {goal : Formula α} (hgoal : goal.ArrowFree)
    {context : List (Formula α)} (hfree : ∀ h ∈ context, h.ArrowFree)
    (himplied : ∀ v : α → Bool, (∀ h ∈ context, h.truth v = true) →
      goal.truth v = true) :
    Derivable (.table ⟨context, goal⟩) := by
  refine derivable_of_splits context hfree (fun _ hh => hh)
    fun more htrue => ?_
  exact derivable_of_present hgoal (himplied (present (context ++ more)) htrue)

/-- The goal may have arrows as well, if it can be written without
brackets. -/
theorem derivable_of_shaped {goal : Formula α} (hshaped : goal.isShaped = true)
    {context : List (Formula α)} (hfree : ∀ h ∈ context, h.ArrowFree)
    (himplied : ∀ v : α → Bool, (∀ h ∈ context, h.truth v = true) →
      goal.truth v = true) :
    Derivable (.table ⟨context, goal⟩) := by
  -- down the arrows of the goal, each left operand becoming a hypothesis
  induction goal generalizing context with
  | atom a =>
      exact derivable_of_implied (Formula.arrowFree_atom a) hfree himplied
  | binary op left right ihl ihr =>
      by_cases hop : op = .imp
      · subst hop
        obtain ⟨hl, -, hls, hrs⟩ := Formula.isShaped_binary.1 hshaped
        have hleft : left.ArrowFree := Formula.arrowFree_of_not_isImp hls hl
        refine .one (.implIntro rfl) (ihr hrs ?_ fun v htrue => ?_)
        · exact List.forall_mem_append.2
            ⟨hfree, List.forall_mem_singleton.2 hleft⟩
        · obtain ⟨hcontext, hassumed⟩ := List.forall_mem_append.1 htrue
          exact Formula.truth_imp.1 (himplied v hcontext)
            (hassumed left List.mem_cons_self)
      · have hjunction : (Formula.binary op left right).ArrowFree :=
          Formula.arrowFree_of_not_isImp hshaped
            (Formula.isImp_junction hop left right)
        exact derivable_of_implied hjunction hfree himplied

-- ========================================================= completeness

theorem Rule.make_name (r : Rule) :
    Rule.make (.text r.name) (r.index?.getD Rule.defaultIndex) = .ok r := by
  cases r <;> rfl

namespace Goal

open ProofTree

/-- A goal that was typed can be proved just if it is a tautology: by
rules that are had by name, each applied at a node that is found by its
path, all of them accepted. -/
theorem provable_iff_tautology {limit : Nat} {text : String} {goal : Goal}
    (hparse : Goal.parse limit text = .ok goal) :
    (∃ script t, (ofGoal goal).replay script = some t ∧ t.proved = true
        ∧ ∀ entry ∈ script, ∃ name index,
            Rule.make name index = .ok entry.2)
      ↔ ∀ v : Atom → Bool, goal.truth v = true := by
  constructor
  · rintro ⟨script, t, hreplay, hproved, -⟩ v
    have hreach := reaches_of_replay .refl hreplay
    have hf : Faithful t := faithful_of_reaches (.leaf _) hreach
    rw [← Formula.value_eq_truth]
    exact hf.value_of_proved v (state_of_reaches hreach) hproved
  · intro hvalid
    have hshaped : goal.isShaped = true :=
      (isCanonical_iff.1 (isCanonical_of_parse hparse).1).1
    have hderivable : Derivable (.ofGoal goal) :=
      derivable_of_shaped hshaped (fun _ hh => nomatch hh)
        fun v _ => hvalid v
    obtain ⟨script, t, hreplay, hproved⟩ := hderivable.exists_script
    exact ⟨script, t, hreplay, hproved, fun entry _ =>
      ⟨_, _, Rule.make_name entry.2⟩⟩

/-- From a conjunction or its alternative, the alternative or a part. -/
def weakened : Goal :=
  .imp (.or (.and (.atom (.var "A")) (.atom (.var "B"))) (.atom (.var "C")))
    (.or (.atom (.var "C")) (.atom (.var "B")))

/-- From a disjunction, one side of it. -/
def oneSided : Goal :=
  .imp (.or (.atom (.var "A")) (.atom (.var "B"))) (.atom (.var "A"))

/-- The first is a tautology that can be typed, so there is a script for
it; the second can be typed as well, but has none. -/
theorem provable_iff_tautology_weakened :
    weakened.text = "A and B or C -> C or B"
      ∧ Goal.parse 3 weakened.text = .ok weakened
      ∧ (∃ script t, (ofGoal weakened).replay script = some t
          ∧ t.proved = true
          ∧ ∀ entry ∈ script, ∃ name index,
              Rule.make name index = .ok entry.2)
      ∧ Goal.parse 3 oneSided.text = .ok oneSided
      ∧ ¬ ∃ script t, (ofGoal oneSided).replay script = some t
          ∧ t.proved = true
          ∧ ∀ entry ∈ script, ∃ name index,
              Rule.make name index = .ok entry.2 := by
  have hweakened : Goal.parse 3 weakened.text = .ok weakened :=
    parse_text (by decide) (by decide) (by decide)
  have honeSided : Goal.parse 3 oneSided.text = .ok oneSided :=
    parse_text (by decide) (by decide) (by decide)
  refine ⟨by decide, hweakened, ?_, honeSided, ?_⟩
  · refine (provable_iff_tautology hweakened).2 fun v => ?_
    simp only [weakened, Formula.truth]
    cases v (.var "B") <;> cases v (.var "C") <;> simp
  · intro hscript
    have htrue := (provable_iff_tautology honeSided).1 hscript
      (· == .var "B")
    revert htrue
    decide

end Goal

end Deduction
