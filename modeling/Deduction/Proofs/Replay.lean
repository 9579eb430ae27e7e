/-
A tree is its script, whatever was tried before it came about.

A run may overwrite a subtree, take one back, and make attempts that are
refused or end in an error. None of that leaves a trace. At each node of
the tree the children have the states that the node's rule leaves there,
and replaying the rules from parents to children, on a tree at which
nothing has been done, is accepted entry by entry and gives the same tree.

The replay is held to the limit of the run: comparing a hypothesis with
the goal may fail on formulas that are nested too deeply. So besides being
faithful the trees of a run keep a second invariant, `Judged`: each rule
that stands in the tree could be judged at its node. It is kept because
the nodes away from a replaced one keep state and rule
(`get?_replace_cases`).
-/
import Deduction.Proofs.Script

namespace Deduction.ProofTree

variable {α : Type} [BEq α]

-- ============================================================== judging

/-- All rules of the tree can be judged where they stand. -/
abbrev Judged (limit : Nat) : ProofTree α → Prop :=
  May fun state rule => state.judges limit rule = true

omit [BEq α] in
/-- A leaf has no rules that could be forbidden. -/
theorem may_leaf (may : State α → Rule → Prop) (state : State α) :
    May may (leaf state) := by
  intro path n rule hget hrule
  cases path with
  | nil =>
      rw [get?_nil] at hget
      injection hget with hget
      subst hget
      cases hrule
  | cons i path =>
      obtain ⟨child, hchild, -⟩ := get?_cons_iff.1 hget
      cases hchild

/-- A step with a rule that can be judged gives a tree of such rules. -/
theorem judged_step {limit : Nat} {t new : ProofTree α} {step : Step}
    (hstep : t.step? step = some new)
    (hjudges : ∀ rule, step = .apply rule →
      t.state.judges limit rule = true) : Judged limit new := by
  rcases step?_cases hstep with ⟨s, rule, states, rfl, hs, -, rfl⟩ | ⟨-, -, rfl⟩
  · intro path n r hget hrule
    cases path with
    | nil =>
        rw [get?_nil] at hget
        injection hget with hget
        subst hget
        injection hrule with hrule
        subst hrule
        rw [hs] at hjudges
        exact hjudges rule rfl
    | cons i path =>
        -- below the new rule there are only leaves
        obtain ⟨child, hchild, hrest⟩ := get?_cons_iff.1 hget
        have hmem : child ∈ states.map leaf := List.mem_of_getElem? hchild
        obtain ⟨state, -, rfl⟩ := List.mem_map.1 hmem
        have hleaf : Judged limit (leaf state) := may_leaf _ state
        exact hleaf path n r hrest hrule
  · exact may_leaf _ t.state

/-- No attempt brings in a rule that could not be judged. -/
theorem Judged.attempt {limit : Nat} {t : ProofTree α} (h : Judged limit t)
    (a : Attempt) : Judged limit (t.attempt limit a).2 := by
  rcases attempt_cases limit t a with
    ⟨path, found, step, new, -, hget, -, hjudges, hnew, hattempt⟩ | ⟨-, hsame⟩
  · rw [hattempt]
    intro q n rule hq hrule
    rcases get?_replace_cases hget hq with ⟨r, -, hr⟩ | ⟨m, hm, hstate, hrule'⟩
    · exact judged_step hnew hjudges r n rule hr hrule
    · have hm' := h q m rule hm (hrule'.trans hrule)
      rw [hstate] at hm'
      exact hm'
  · rw [hsame]
    exact h

/-- So every rule in a tree that a run has led to could be judged when it
was applied. -/
theorem judged_run (limit : Nat) (goal : Formula α)
    (attempts : List Attempt) :
    Judged limit ((ofGoal goal).run limit attempts) := by
  suffices key : ∀ t : ProofTree α, Judged limit t →
      Judged limit (t.run limit attempts) from key _ (may_leaf _ _)
  induction attempts with
  | nil => intro t ht; exact ht
  | cons a attempts ih => intro t ht; exact ih _ (ht.attempt a)

-- ================================================ replaying under a limit

/-- Attempts the rules of a script one after the other. There is no answer
unless every attempt is accepted. -/
def replayWithin (limit : Nat) (t : ProofTree α) :
    List (Value × Rule) → Option (ProofTree α)
  | [] => some t
  | (value, rule) :: script =>
    match t.attempt limit (.move value (.rule rule)) with
    | (some true, t') => t'.replayWithin limit script
    | _ => none

/-- A rule that infers something, and can be judged, is accepted at the node
that the path leads to. -/
theorem attempt_accepted {limit : Nat} {t found : ProofTree α} {path : Path}
    {s : Sequent α} {rule : Rule} {states : List (State α)}
    (hget : t.get? path = some found) (hs : found.state = .table s)
    (hinf : s.Infers rule states)
    (hjudges : (State.table s).judges limit rule = true) :
    t.attempt limit (.move (Outline.pathValue path) (.rule rule))
      = (some true,
          t.replace path (.node (.table s) (some rule) (states.map leaf))) := by
  rw [attempt_eq_respond (find_pathValue hget) hget]
  simp only [respond, hs, hjudges, if_true, step?_apply hs hinf]

/-- A script in two parts is replayed part by part. -/
theorem replayWithin_append (limit : Nat) (t : ProofTree α)
    (xs ys : List (Value × Rule)) :
    t.replayWithin limit (xs ++ ys)
      = (t.replayWithin limit xs).bind (·.replayWithin limit ys) := by
  induction xs generalizing t with
  | nil => rfl
  | cons entry xs ih =>
      obtain ⟨value, rule⟩ := entry
      rw [List.cons_append, replayWithin, replayWithin]
      split
      next t' _ => exact ih t'
      next => rfl

/-- Replaying within the limit replays all scripts whose rules can be
judged. -/
theorem replays_replayWithin (limit : Nat) :
    Replays (fun state rule => state.judges limit rule = true)
      (replayWithin limit : ProofTree α → _ → _) where
  nil _ := rfl
  append := replayWithin_append limit
  cons hget hs hinf hjudges script := by
    rw [replayWithin, attempt_accepted hget hs hinf hjudges]

-- ============================================================ the script

/-- What faithfulness says of a node, in terms of the node alone. -/
theorem Faithful.node_iff {n : ProofTree α} (hf : Faithful n) :
    (n.children ≠ [] ↔ ∃ rule, n.rule? = some rule)
      ∧ (n.state = .closed → n.children = [] ∧ n.rule? = none)
      ∧ ∀ rule, n.rule? = some rule →
          n.state.refine rule = n.children.map state := by
  cases hf with
  | leaf state =>
      refine ⟨⟨fun h => absurd rfl h, ?_⟩, fun _ => ⟨rfl, rfl⟩, ?_⟩
      · rintro ⟨rule, h⟩
        cases h
      · intro rule h
        cases h
  | @node s rule children hinf hall =>
      have hne : children ≠ [] := by
        rintro rfl
        exact hinf.ne_nil rfl
      refine ⟨⟨fun _ => ⟨rule, rfl⟩, fun _ => hne⟩, ?_, ?_⟩
      · intro h
        cases h
      · intro r h
        injection h with h
        subst h
        exact hinf.refine_eq

/-- Whatever was attempted, the tree is what its script makes of the goal:
a node has children just if it has a rule, a closed node has neither, the
children have the states that the rule leaves, in order; and each entry of
the script is accepted again, one after the other, up to the same tree. -/
theorem run_eq_script (limit : Nat) (goal : Formula α)
    (attempts : List Attempt) :
    (∀ path n, ((ofGoal goal).run limit attempts).get? path = some n →
      (n.children ≠ [] ↔ ∃ rule, n.rule? = some rule)
      ∧ (n.state = .closed → n.children = [] ∧ n.rule? = none)
      ∧ ∀ rule, n.rule? = some rule →
          n.state.move limit (.rule rule) = .ok (n.children.map state))
    ∧ (ofGoal goal).replayWithin limit
        ((ofGoal goal).run limit attempts).script
      = some ((ofGoal goal).run limit attempts) := by
  have hf := faithful_run limit goal attempts
  have hjudged := judged_run limit goal attempts
  have hroot : ((ofGoal goal).run limit attempts).state = .ofGoal goal :=
    state_of_reaches (reaches_run limit (ofGoal goal) attempts)
  constructor
  · intro path n hget
    obtain ⟨hchildren, hclosed, hstates⟩ := (hf.get? hget).node_iff
    refine ⟨hchildren, hclosed, fun rule hrule => ?_⟩
    rw [State.move, if_pos (hjudged path n rule hget hrule), hstates rule hrule]
  · have h := (replays_replayWithin limit).script hf hjudged
    rw [hroot] at h
    exact h

/-- A goal whose proof begins with a wrong turn. -/
def detoured : Formula Atom :=
  .imp (.and (.atom (.var "A")) (.atom (.const 1)))
    (.or (.atom (.const 1)) (.atom (.var "1")))

/-- A rule that is refused, a rule that is overwritten together with what
was done below it, one that is taken back, and then a proof. -/
def detour : List Attempt :=
  [.move (.array []) (.rule .orIntro1), .move (.array []) (.rule .implIntro),
   .move (.array [.int 0]) (.rule .orIntro2),
   .move (.array [.int 0, .int 0]) (.rule (.andElim (.int 0))),
   .move (.array [.int 0]) (.rule (.andElim (.int 0))),
   .move (.array [.int 0, .int 0]) (.rule .orIntro2),
   .undo (.array [.int 0, .int 0]),
   .move (.array [.int 0, .int 0]) (.rule .orIntro1),
   .move (.array [.int 0, .int 0, .int 0]) (.rule (.assumption (.int 2)))]

/-- Nine attempts leave a script of four rules, which gives the same tree
again. -/
theorem run_eq_script_detour :
    ((ofGoal detoured).run 5 detour).script.map (fun entry => entry.2.text)
        = ["ImplIntro", "AndElim(0)", "OrIntro1", "Assumption(2)"]
      ∧ (ofGoal detoured).replayWithin 5
          ((ofGoal detoured).run 5 detour).script
        = some ((ofGoal detoured).run 5 detour)
      ∧ ∃ n, ((ofGoal detoured).run 5 detour).get? [0] = some n
        ∧ n.state.move 5 (.rule (.andElim (.int 0)))
          = .ok (n.children.map state) := by
  refine ⟨by decide, (run_eq_script 5 detoured detour).2, _, rfl, ?_⟩
  exact ((run_eq_script 5 detoured detour).1 [0] _ rfl).2.2 _ rfl

end Deduction.ProofTree
