/-
Proofs are schemes: they go through whatever stands for the atoms.

A substitution puts a formula for each atom, and so maps formulas,
sequents and whole trees (`Formula.subst` and the like). Rules look at
connectives, which stay where they are, and compare a hypothesis with the
goal, which agree after the substitution if they agreed before. So a rule
that is accepted at a sequent is accepted at its image, with the images of
what it leaves (`Infers.subst`). It is the accepted steps that carry over:
an atom may turn into a formula to which more rules apply.

Taking back looks at no formula at all. So a run in which every rule is
accepted can be repeated attempt by attempt from the image of its goal, and
the two trees stay in step (`attempt_subst`).

# The limit of depth

Comparing a hypothesis with the goal may fail on formulas that are nested
too deeply, and a substitution makes formulas deeper: by the depth of what
is put for the atoms, at most (`depth_subst_le`). The second run has to be
given that much more room. No formula in the first run has atoms that its
goal has not (`roomy_of_reaches`), so one allowance is enough for all.
-/
import Deduction.Proofs.Heredity

namespace Deduction

variable {α β : Type}

-- ============================================================ formulas

namespace Formula

/-- Puts a formula for every atom. -/
def subst (σ : α → Formula β) : Formula α → Formula β
  | .atom a => σ a
  | .binary op left right => .binary op (left.subst σ) (right.subst σ)

/-- The depth of the deepest formula that is put for an atom. -/
def growth (σ : α → Formula β) : Formula α → Nat
  | .atom a => (σ a).depth
  | .binary _ left right => max (left.growth σ) (right.growth σ)

/-- A formula grows by what is put in for its atoms at most. -/
theorem depth_subst_le (σ : α → Formula β) (f : Formula α) :
    (f.subst σ).depth ≤ f.depth + f.growth σ := by
  induction f with
  | atom a =>
      simp only [subst, growth, depth]
      omega
  | binary op left right ihl ihr =>
      simp only [subst, growth, depth]
      omega

/-- Comparing a formula with itself is finished within a limit just if the
formula is no deeper. -/
theorem isSome_sameWithin?_self [BEq α] [ReflBEq α] {limit : Nat}
    {f : Formula α} :
    (f.sameWithin? limit f).isSome = true ↔ f.depth ≤ limit := by
  suffices key : f.sameWithin? limit f
      = if f.depth ≤ limit then some true else none by
    rw [key]
    by_cases h : f.depth ≤ limit
    · simp [h]
    · simp [h]
  induction f generalizing limit with
  | atom a => simp [sameWithin?, depth]
  | binary op left right ihl ihr =>
      cases limit with
      | zero => simp [sameWithin?, depth]
      | succ limit =>
          have hdepth : max left.depth right.depth + 1 ≤ limit + 1
              ↔ left.depth ≤ limit ∧ right.depth ≤ limit := by omega
          simp only [sameWithin?, beq_self_eq_true, if_true, ihl, ihr, depth,
            hdepth]
          by_cases hl : left.depth ≤ limit
          · simp [hl]
          · simp [hl]

end Formula

-- ============================================================ sequents

namespace Sequent

def subst (σ : α → Formula β) (s : Sequent α) : Sequent β :=
  ⟨s.context.map (·.subst σ), s.goal.subst σ⟩

end Sequent

def State.subst (σ : α → Formula β) : State α → State β
  | .closed => .closed
  | .table s => .table (s.subst σ)

namespace Sequent

@[simp] theorem goal_subst (σ : α → Formula β) (s : Sequent α) :
    (s.subst σ).goal = s.goal.subst σ := rfl

theorem subst_assume (σ : α → Formula β) (s : Sequent α)
    (more : List (Formula α)) (goal : Formula α) :
    (s.assume more goal).subst σ
      = (s.subst σ).assume (more.map (·.subst σ)) (goal.subst σ) := by
  simp [assume, State.subst, Sequent.subst]

/-- A number is that of the same hypothesis before and after. -/
theorem hypothesis?_subst (σ : α → Formula β) (s : Sequent α)
    (index : Value) :
    (s.subst σ).hypothesis? index
      = (s.hypothesis? index).map (·.subst σ) := by
  unfold hypothesis? Sequent.subst
  cases index.position? with
  | none => rfl
  | some i => simp

variable [BEq α] [LawfulBEq α] [BEq β] [LawfulBEq β]

/-- A rule goes through after a substitution, and leaves the images of what
it left. -/
theorem Infers.subst (σ : α → Formula β) {s : Sequent α} {rule : Rule}
    {states : List (State α)} (h : s.Infers rule states) :
    (s.subst σ).Infers rule (states.map (·.subst σ)) := by
  have hgoal : ∀ {f : Formula α}, s.goal = f →
      (s.subst σ).goal = f.subst σ := fun hf => congrArg (·.subst σ) hf
  have hhyp : ∀ {index : Value} {f : Formula α},
      s.hypothesis? index = some f →
      (s.subst σ).hypothesis? index = some (f.subst σ) := by
    intro index f hf
    rw [hypothesis?_subst, hf, Option.map_some]
  cases h with
  | implIntro hg =>
      simpa [subst_assume] using Infers.implIntro (hgoal hg)
  | orIntro1 hg => simpa [subst_assume] using Infers.orIntro1 (hgoal hg)
  | orIntro2 hg => simpa [subst_assume] using Infers.orIntro2 (hgoal hg)
  | andIntro hg => simpa [subst_assume] using Infers.andIntro (hgoal hg)
  | andElim hh => simpa [subst_assume] using Infers.andElim (hhyp hh)
  | orElim hh => simpa [subst_assume] using Infers.orElim (hhyp hh)
  | assumption hh hsame =>
      refine .assumption (hhyp hh) ((Formula.same_iff_eq _ _).2 ?_)
      exact congrArg (·.subst σ) ((Formula.same_iff_eq _ _).1 hsame)

/-- A rule that was accepted and judged can be judged after a substitution,
with room for what was put in. -/
theorem Infers.judges_subst {σ : α → Formula β} {s : Sequent α}
    {rule : Rule} {states : List (State α)} (h : s.Infers rule states)
    {limit limit' : Nat} (hroom : limit + s.goal.growth σ ≤ limit')
    (hjudges : (State.table s).judges limit rule = true) :
    (State.table (s.subst σ)).judges limit' rule = true := by
  cases h with
  | assumption hh hsame =>
      have heq := (Formula.same_iff_eq _ _).1 hsame
      subst heq
      simp only [State.judges, hh, Formula.isSome_sameWithin?_self] at hjudges
      simp only [State.judges, hypothesis?_subst, hh, Option.map_some]
      refine Formula.isSome_sameWithin?_self.2 ?_
      have hdepth := Formula.depth_subst_le σ s.goal
      omega
  | implIntro _ | orIntro1 _ | orIntro2 _ | andIntro _ => rfl
  | andElim _ | orElim _ => rfl

end Sequent

-- =============================================================== trees

/-- Whether something is to be taken back. -/
def Attempt.isUndo : Attempt → Bool
  | .move _ _ => false
  | .undo _ => true

namespace ProofTree

mutual

/-- Puts a formula for every atom, all over the tree. The rules stay. -/
def subst (σ : α → Formula β) : ProofTree α → ProofTree β
  | .node state rule children =>
    .node (state.subst σ) rule (substAll σ children)

/-- Puts a formula for every atom in every tree of a list. -/
def substAll (σ : α → Formula β) : List (ProofTree α) → List (ProofTree β)
  | [] => []
  | t :: ts => t.subst σ :: substAll σ ts

end

variable (σ : α → Formula β)

theorem substAll_eq_map (ts : List (ProofTree α)) :
    substAll σ ts = ts.map (subst σ) := by
  induction ts with
  | nil => rfl
  | cons t ts ih => rw [substAll, ih, List.map_cons]

@[simp] theorem subst_node (state : State α) (rule : Option Rule)
    (children : List (ProofTree α)) :
    (node state rule children).subst σ
      = .node (state.subst σ) rule (children.map (subst σ)) := by
  rw [subst, substAll_eq_map]

@[simp] theorem subst_leaf (state : State α) :
    (leaf state).subst σ = leaf (state.subst σ) := rfl

@[simp] theorem state_subst (t : ProofTree α) :
    (t.subst σ).state = t.state.subst σ := by
  cases t
  rfl

@[simp] theorem children_subst (t : ProofTree α) :
    (t.subst σ).children = t.children.map (subst σ) := by
  cases t
  exact substAll_eq_map σ _

/-- A path leads to the same node before and after. -/
theorem get?_subst (t : ProofTree α) (path : Path) :
    (t.subst σ).get? path = (t.get? path).map (subst σ) := by
  induction path generalizing t with
  | nil => simp
  | cons i path ih =>
      rw [get?_cons, get?_cons, children_subst, List.getElem?_map]
      cases t.children[i]? with
      | none => rfl
      | some child => exact ih child

/-- Replacing a node and substituting can change places. -/
theorem replace_subst (t new : ProofTree α) (path : Path) :
    (t.replace path new).subst σ
      = (t.subst σ).replace path (new.subst σ) := by
  induction path generalizing t with
  | nil => simp
  | cons i path ih =>
      obtain ⟨state, rule, children⟩ := t
      rw [subst_node, replace_cons, replace_cons, subst_node]
      refine congrArg (node (state.subst σ) rule) ?_
      refine List.ext_getElem? fun j => ?_
      by_cases hij : i = j
      · subst hij
        cases hchild : children[i]? with
        | none => simp [ProofTree.children, hchild]
        | some child => simp [ProofTree.children, hchild, ih]
      · simp [ProofTree.children, hij]

mutual

/-- The image of a tree is finished just if the tree is. -/
theorem proved_subst : ∀ t : ProofTree α, (t.subst σ).proved = t.proved
  | .node .closed _ _ => by
      rw [subst, State.subst, proved, proved]
  | .node (.table s) _ children => by
      rw [subst, State.subst, proved, proved, allProved_subst children]
      cases children <;> rfl

theorem allProved_subst :
    ∀ ts : List (ProofTree α), allProved (substAll σ ts) = allProved ts
  | [] => by rw [substAll, allProved, allProved]
  | t :: ts => by
      rw [substAll, allProved, allProved, proved_subst t, allProved_subst ts]

end

/-- So can taking back what is below a node. -/
theorem undo?_subst (t : ProofTree α) :
    (t.subst σ).undo? = t.undo?.map (subst σ) := by
  unfold undo?
  rw [children_subst, state_subst]
  cases t.children with
  | nil => rfl
  | cons child children => rfl

-- ============================================================== traces

section Traces

variable {σ} [BEq α]

/-- Makes attempts one after the other, and lists the answers and the trees
that they give. There is no list unless each rule is accepted, and what is
to be taken back is looked for at a node that is there. -/
def trace (limit : Nat) (t : ProofTree α) :
    List Attempt → Option (List (Bool × ProofTree α))
  | [] => some []
  | a :: attempts =>
    match t.attempt limit a with
    | (some accepted, t') =>
      if accepted || a.isUndo then
        (t'.trace limit attempts).map ((accepted, t') :: ·)
      else none
    | (none, _) => none

/-- A trace goes on behind its first attempt if that is at a node, and is
accepted or a step back. -/
theorem trace_cons_iff {limit : Nat} {t : ProofTree α} {a : Attempt}
    {attempts : List Attempt} {answers : List (Bool × ProofTree α)} :
    t.trace limit (a :: attempts) = some answers ↔
      ∃ accepted t' rest, t.attempt limit a = (some accepted, t')
        ∧ (accepted = true ∨ a.isUndo = true)
        ∧ t'.trace limit attempts = some rest
        ∧ answers = (accepted, t') :: rest := by
  rw [trace]
  rcases t.attempt limit a with ⟨answer, u⟩
  cases answer with
  | none => simp
  | some accepted =>
      simp only [Bool.or_eq_true, Option.ite_none_right_eq_some,
        Option.map_eq_some_iff]
      constructor
      · rintro ⟨hgood, rest, hrest, rfl⟩
        exact ⟨accepted, u, rest, rfl, hgood, hrest, rfl⟩
      · rintro ⟨_, _, rest, ⟨⟩, hgood, hrest, rfl⟩
        exact ⟨hgood, rest, hrest, rfl⟩

/-- The second limit leaves room for what is put for the atoms of the
goal. -/
def Roomy (σ : α → Formula β) (limit limit' : Nat) : State α → Prop
  | .closed => True
  | .table s => limit + s.goal.growth σ ≤ limit'

/-- One allowance is enough for all trees that steps lead to. -/
theorem roomy_of_reaches {goal : Formula α} {limit limit' : Nat}
    (hlimit : limit + goal.growth σ ≤ limit') {t n : ProofTree α}
    (h : Reaches (ofGoal goal) t) {path : Path}
    (hget : t.get? path = some n) : Roomy σ limit limit' n.state := by
  have hobeys : n.state.Obeys (·.growth σ ≤ goal.growth σ)
      (·.growth σ ≤ goal.growth σ) :=
    h.obeys (.of_operands Nat.max_le.1) (Nat.le_refl _) hget
  cases hs : n.state with
  | closed => trivial
  | table s =>
      rw [hs] at hobeys
      have hgoal : s.goal.growth σ ≤ goal.growth σ := hobeys.2
      show limit + s.goal.growth σ ≤ limit'
      omega

end Traces

-- ============================================================ attempts

section Attempts

variable {σ} [BEq α] [LawfulBEq α] [BEq β] [LawfulBEq β]

/-- An accepted step is accepted at the image, and gives the image. -/
theorem step?_subst {t new : ProofTree α} {step : Step}
    (h : t.step? step = some new) :
    (t.subst σ).step? step = some (new.subst σ) := by
  rcases step?_cases h with
    ⟨s, rule, states, rfl, hs, hinf, rfl⟩ | ⟨rfl, -, -⟩
  · have hstate : (t.subst σ).state = .table (s.subst σ) := by
      rw [state_subst, hs]
      rfl
    rw [step?_apply hstate (hinf.subst σ), subst_node, List.map_map,
      List.map_map]
    rfl
  · have hundo : t.undo? = some new := h
    show (t.subst σ).undo? = _
    rw [undo?_subst, hundo, Option.map_some]

/-- A rule that can be judged, and is accepted, can be judged after the
substitution, if the limit grows with the formulas. -/
theorem judges_subst {limit limit' : Nat} {t new : ProofTree α} {rule : Rule}
    (hroom : Roomy σ limit limit' t.state)
    (hnew : t.step? (.apply rule) = some new)
    (hjudges : t.state.judges limit rule = true) :
    (t.subst σ).state.judges limit' rule = true := by
  rcases step?_cases hnew with ⟨s, r, states, hr, hs, hinf, -⟩ | ⟨hr, -, -⟩
  · cases hr
    rw [hs] at hroom hjudges
    rw [state_subst, hs]
    exact hinf.judges_subst hroom hjudges
  · cases hr

/-- The image of a node responds alike, unless the node refuses a rule or
is asked for something that is none. -/
theorem respond_subst {limit limit' : Nat} {t new : ProofTree α}
    (hroom : Roomy σ limit limit' t.state) {a : Attempt} {accepted : Bool}
    (h : t.respond limit a = (some accepted, new))
    (hgood : accepted = true ∨ a.isUndo = true) :
    (t.subst σ).respond limit' a = (some accepted, new.subst σ) := by
  cases a with
  | undo value =>
      unfold respond step? at h ⊢
      rw [undo?_subst]
      cases hundo : t.undo? with
      | none =>
          simp only [hundo] at h
          cases h
          rfl
      | some u =>
          simp only [hundo] at h
          cases h
          rfl
  | move value m =>
      have haccepted : accepted = true :=
        hgood.resolve_right (by simp [Attempt.isUndo])
      subst haccepted
      rcases respond_cases limit t (.move value m) with
        ⟨step, new', hstep, hjudges, hnew, hrespond⟩ | ⟨hrefused, -⟩
      · rw [hrespond] at h
        cases h
        rw [respond_of_step? hstep, step?_subst hnew]
        rintro rule rfl
        exact judges_subst hroom hnew (hjudges rule rfl)
      · rw [h] at hrefused
        exact absurd rfl hrefused

/-- An attempt at the image of a tree gives the image of what it gives at
the tree. -/
theorem attempt_subst {limit limit' : Nat} {t t' : ProofTree α}
    (hroom : ∀ path n, t.get? path = some n → Roomy σ limit limit' n.state)
    {a : Attempt} {accepted : Bool}
    (h : t.attempt limit a = (some accepted, t'))
    (hgood : accepted = true ∨ a.isUndo = true) :
    (t.subst σ).attempt limit' a = (some accepted, t'.subst σ) := by
  cases hfind : t.find a.path with
  | error e =>
      rw [attempt_of_error hfind] at h
      cases h
  | ok path =>
      obtain ⟨found, hget⟩ := get?_of_find hfind
      have hget' : (t.subst σ).get? path = some (found.subst σ) := by
        rw [get?_subst, hget, Option.map_some]
      rw [attempt_eq_respond hfind hget, Prod.mk.injEq] at h
      obtain ⟨hanswer, rfl⟩ := h
      have hrespond := respond_subst (hroom path found hget)
        (Prod.ext hanswer rfl) hgood
      rw [attempt_eq_respond (find_of_get? hfind hget') hget', hrespond,
        replace_subst]

/-- From trees that are in step, attempts lead to trees that are. -/
theorem trace_subst_of_reaches {goal : Formula α} {limit limit' : Nat}
    (hlimit : limit + goal.growth σ ≤ limit') {t : ProofTree α}
    (ht : Reaches (ofGoal goal) t) {attempts : List Attempt}
    {answers : List (Bool × ProofTree α)}
    (h : t.trace limit attempts = some answers) :
    (t.subst σ).trace limit' attempts
        = some (answers.map (Prod.map id (subst σ)))
      ∧ (t.subst σ).run limit' attempts = (t.run limit attempts).subst σ := by
  induction attempts generalizing t answers with
  | nil =>
      cases h
      exact ⟨rfl, rfl⟩
  | cons a attempts ih =>
      obtain ⟨accepted, t', rest, hattempt, hgood, hrest, rfl⟩ :=
        trace_cons_iff.1 h
      have himage := attempt_subst
        (fun path n hget => roomy_of_reaches hlimit ht hget) hattempt hgood
      have ht' : Reaches (ofGoal goal) t' := by
        have hreach := ht.attempt limit a
        rw [hattempt] at hreach
        exact hreach
      obtain ⟨htrace, hrun⟩ := ih ht' hrest
      refine ⟨trace_cons_iff.2
        ⟨accepted, t'.subst σ, _, himage, hgood, htrace, rfl⟩, ?_⟩
      show ((t.subst σ).attempt limit' a).2.run limit' attempts
        = ((t.attempt limit a).2.run limit attempts).subst σ
      rw [himage, hattempt]
      exact hrun

end Attempts

/-- If each rule of a run is accepted, then the run can be repeated attempt
by attempt with formulas put for the atoms of its goal: the answers are the
same, each tree is the image of the first run's tree, and if the first run
ends in a proof, so does the second. The limit has to leave room for what
is put in. -/
theorem trace_subst (σ : Atom → Formula Atom) (goal : Formula Atom)
    {limit limit' : Nat} (hlimit : limit + goal.growth σ ≤ limit')
    {attempts : List Attempt} {answers : List (Bool × ProofTree Atom)}
    (h : (ofGoal goal).trace limit attempts = some answers) :
    (ofGoal (goal.subst σ)).trace limit' attempts
        = some (answers.map (Prod.map id (subst σ)))
      ∧ (ofGoal (goal.subst σ)).run limit' attempts
        = ((ofGoal goal).run limit attempts).subst σ
      ∧ (((ofGoal goal).run limit attempts).proved = true →
          ((ofGoal (goal.subst σ)).run limit' attempts).proved = true) := by
  obtain ⟨htrace, hrun⟩ := trace_subst_of_reaches hlimit .refl h
  refine ⟨htrace, hrun, fun hproved => ?_⟩
  rw [← proved_subst σ, ← hrun] at hproved
  exact hproved

/-- A disjunction, turned round. -/
def turned : Formula Atom :=
  .imp (.or (.atom (.var "A")) (.atom (.var "B")))
    (.or (.atom (.var "B")) (.atom (.var "A")))

/-- A proof of it, with nothing to be taken back at first, and later a
wrong turn. -/
def turning : List Attempt :=
  [.undo (.array []), .move (.array []) (.rule .implIntro),
   .move (.array [.int 0]) (.rule .orIntro1), .undo (.array [.int 0]),
   .move (.array [.int 0]) (.rule (.orElim (.int 0))),
   .move (.array [.int 0, .int 0]) (.rule .orIntro2),
   .move (.array [.int 0, .int 0, .int 0]) (.rule (.assumption (.int 1))),
   .move (.array [.int 0, .int 1]) (.rule .orIntro1),
   .move (.array [.int 0, .int 1, .int 0]) (.rule (.assumption (.int 1)))]

/-- An implication for every `A` and a disjunction for every `B`, each with
the other letter in it. -/
def crossed (a : Atom) : Formula Atom :=
  if a = .var "A" then .imp (.atom (.var "B")) (.atom (.const 1))
  else if a = .var "B" then
    .or (.atom (.var "A")) (.and (.atom (.var "A")) (.atom (.const 0)))
  else .atom a

/-- What proves the disjunction of two letters proves that of two formulas
in their places. Comparing those takes two levels more, and with one level
less the second run gets stuck. -/
theorem trace_subst_crossed :
    turned.growth crossed = 2
      ∧ (turned.subst crossed).text
        = "B -> 1 or A or A and 0 -> A or A and 0 or B -> 1"
      ∧ (∃ answers, (ofGoal turned).trace 0 turning = some answers
        ∧ answers.map (·.1)
          = [false, true, true, true, true, true, true, true, true]
        ∧ (ofGoal (turned.subst crossed)).trace 2 turning
          = some (answers.map (Prod.map id (subst crossed))))
      ∧ ((ofGoal (turned.subst crossed)).run 2 turning).proved = true
      ∧ (ofGoal (turned.subst crossed)).trace 1 turning = none := by
  have hlimit : 0 + turned.growth crossed ≤ 2 := by decide
  have hfirst : (ofGoal turned).trace 0 turning = some _ := rfl
  obtain ⟨htrace, -, hproved⟩ := trace_subst crossed turned hlimit hfirst
  exact ⟨by decide, by decide, ⟨_, hfirst, rfl, htrace⟩,
    hproved (by decide), rfl⟩

end ProofTree

end Deduction
