/-
Runs: one attempt after the other at the nodes of a proof tree.

An attempt names a node by a plain value and asks for a rule, for
something that is no rule, or for taking back what is below. It may be
accepted or refused, or end in an error, and only an accepted one
changes the tree. What comes of it is up to the node that it names
(`attempt_eq_respond`). `run` is the tree after any list of attempts;
`Reaches` forgets everything but the accepted steps, and is what the
invariants are proved along.

# The invariant

`Faithful` says that a tree is what its rules make of its root: a node
without a recorded rule has no children, and a node with one has a child
for each state that the rule leaves at it, in order. A rule that replaces
a subtree and an undo that drops one both give a faithful node with the
state of the old one (`faithful_step`), and such a node may be put in the
old one's place (`Faithful.replace`). That is all that a run does, so
every tree of a run is faithful, whatever was tried on the way.
-/
import Deduction.Proofs.Paths

namespace Deduction

variable {α : Type}

-- ============================================================ attempts

/-- Something asked for at a node, which a plain value names. -/
inductive Attempt where
  | move (path : Value) (move : Move)
  | undo (path : Value)
  deriving Repr

namespace Attempt

/-- The value that names the node. -/
def path : Attempt → Value
  | .move path _ => path
  | .undo path => path

/-- What is to be done at the node, unless it is no rule. -/
def step? : Attempt → Option Step
  | .move _ (.rule r) => some (.apply r)
  | .move _ (.foreign _) => none
  | .undo _ => some .undo

end Attempt

namespace ProofTree

theorem map_state_leaf (states : List (State α)) :
    (states.map leaf).map state = states := by
  rw [List.map_map]
  exact List.map_id states

variable [BEq α]

/-- Makes an attempt: whether it is accepted, and the tree after it.
There is no answer if it ends in an error. -/
def attempt (limit : Nat) (t : ProofTree α) :
    Attempt → Option Bool × ProofTree α
  | .move value move =>
    match t.find value with
    | .error _ => (none, t)
    | .ok path =>
      match t.moveAt? limit path move with
      | some (.ok (accepted, t')) => (some accepted, t')
      | _ => (none, t)
  | .undo value =>
    match t.find value with
    | .error _ => (none, t)
    | .ok path =>
      match t.stepAt? path .undo with
      | some (accepted, t') => (some accepted, t')
      | none => (none, t)

/-- The tree after a list of attempts. -/
def run (limit : Nat) (t : ProofTree α) (attempts : List Attempt) :
    ProofTree α :=
  attempts.foldl (fun t a => (t.attempt limit a).2) t

-- ======================================================= what steps do

/-- What a step at the root can do: put down the states that a rule
leaves, or take back what is below. -/
theorem step?_cases {t new : ProofTree α} {step : Step}
    (h : t.step? step = some new) :
    (∃ s rule states, step = .apply rule ∧ t.state = .table s
        ∧ s.Infers rule states
        ∧ new = .node (.table s) (some rule) (states.map leaf))
      ∨ (step = .undo ∧ t.children ≠ [] ∧ new = leaf t.state) := by
  cases step with
  | apply rule =>
      left
      unfold step? accept? at h
      cases hs : t.state with
      | closed => rw [hs] at h; cases h
      | table s =>
          rw [hs] at h
          dsimp only at h
          split at h
          next => cases h
          next hne =>
            injection h with h
            exact ⟨s, rule, s.refine rule, rfl, rfl, Sequent.infers_refine hne,
              h.symm⟩
  | undo =>
      right
      simp only [step?, undo?] at h
      split at h
      next => cases h
      next hne =>
        injection h with h
        refine ⟨rfl, ?_, h.symm⟩
        simpa using hne

theorem state_step? {t new : ProofTree α} {step : Step}
    (h : t.step? step = some new) : new.state = t.state := by
  rcases step?_cases h with ⟨s, rule, states, -, hs, -, rfl⟩ | ⟨-, -, rfl⟩
  · exact hs.symm
  · rfl

/-- An accepted rule, put down at a sequent. -/
theorem step?_apply {t : ProofTree α} {s : Sequent α} {rule : Rule}
    {states : List (State α)} (hs : t.state = .table s)
    (h : s.Infers rule states) :
    t.step? (.apply rule)
      = some (.node (.table s) (some rule) (states.map leaf)) := by
  unfold step? accept?
  rw [hs]
  dsimp only
  rw [h.refine_eq]
  split
  next => exact absurd rfl h.ne_nil
  next => rfl

/-- A rule is accepted at a sequent just if it leaves something there. -/
theorem isSome_accept?_iff {t : ProofTree α} {s : Sequent α} {rule : Rule}
    (hs : t.state = .table s) :
    (t.accept? rule).isSome = true ↔ ∃ states, s.Infers rule states := by
  constructor
  · intro h
    obtain ⟨new, hnew⟩ := Option.isSome_iff_exists.1 h
    have hstep : t.step? (.apply rule) = some new := hnew
    rcases step?_cases hstep with
      ⟨s', rule', states, hrule, hs', hinf, -⟩ | ⟨hundo, -, -⟩
    · rw [hs] at hs'
      injection hs' with hs'
      injection hrule with hrule
      subst hs' hrule
      exact ⟨states, hinf⟩
    · cases hundo
  · rintro ⟨states, hinf⟩
    have hstep : t.accept? rule = some _ := step?_apply hs hinf
    rw [hstep]
    rfl

/-- A step at a path, accepted: a step at the node found there, put in
that node's place. -/
theorem stepAt?_accepted {t t' : ProofTree α} {path : Path} {step : Step} :
    t.stepAt? path step = some (true, t') ↔
      ∃ found new, t.get? path = some found ∧ found.step? step = some new
        ∧ t' = t.replace path new := by
  unfold stepAt?
  constructor
  · intro h
    obtain ⟨found, hget, h⟩ := Option.map_eq_some_iff.1 h
    cases hstep : found.step? step with
    | none => rw [hstep] at h; cases h
    | some new =>
        rw [hstep] at h
        injection h with _ h
        exact ⟨found, new, hget, hstep, h.symm⟩
  · rintro ⟨found, new, hget, hstep, rfl⟩
    rw [hget, Option.map_some, hstep]

/-- A step that is refused leaves the tree as it was. -/
theorem stepAt?_refused {t t' : ProofTree α} {path : Path} {step : Step}
    (h : t.stepAt? path step = some (false, t')) : t' = t := by
  unfold stepAt? at h
  obtain ⟨found, hget, h⟩ := Option.map_eq_some_iff.1 h
  cases hstep : found.step? step with
  | none =>
      rw [hstep] at h
      injection h with _ h
      exact h.symm
  | some new => rw [hstep] at h; cases h

theorem stepAt?_of_none {t found : ProofTree α} {path : Path} {step : Step}
    (hget : t.get? path = some found) (hstep : found.step? step = none) :
    t.stepAt? path step = some (false, t) := by
  unfold stepAt?
  rw [hget, Option.map_some, hstep]

-- ==================================================== what attempts do

/-- What an attempt makes of the node at which it is made: the answer, and
the tree that takes the node's place. -/
def respond (limit : Nat) (t : ProofTree α) : Attempt → Option Bool × ProofTree α
  | .move _ (.foreign _) =>
    if t.state.isClosed then (some false, t) else (none, t)
  | .move _ (.rule r) =>
    if t.state.judges limit r then
      match t.step? (.apply r) with
      | some new => (some true, new)
      | none => (some false, t)
    else (none, t)
  | .undo _ =>
    match t.step? .undo with
    | some new => (some true, new)
    | none => (some false, t)

/-- So does an attempt at a node that is not there. -/
theorem attempt_of_error {limit : Nat} {t : ProofTree α} {a : Attempt}
    {e : PathError} (hfind : t.find a.path = .error e) :
    t.attempt limit a = (none, t) := by
  cases a with
  | move value m =>
      have hvalue : t.find value = .error e := hfind
      simp only [attempt, hvalue]
  | undo value =>
      have hvalue : t.find value = .error e := hfind
      simp only [attempt, hvalue]

/-- An attempt is the response of the node that it names, put in the place
of that node. -/
theorem attempt_eq_respond {limit : Nat} {t found : ProofTree α}
    {a : Attempt} {path : Path} (hfind : t.find a.path = .ok path)
    (hget : t.get? path = some found) :
    t.attempt limit a
      = ((found.respond limit a).1,
          t.replace path (found.respond limit a).2) := by
  have hself : t.replace path found = t := replace_self hget
  cases a with
  | move value m =>
      have hvalue : t.find value = .ok path := hfind
      cases m with
      | rule r =>
          simp only [attempt, hvalue, moveAt?, hget, respond]
          by_cases hjudges : found.state.judges limit r = true
          · simp only [if_pos hjudges, stepAt?, hget, Option.map_some]
            cases found.step? (.apply r) <;> simp only [hself]
          · simp only [if_neg hjudges, hself]
      | foreign v =>
          simp only [attempt, hvalue, moveAt?, hget, respond,
            Option.map_some]
          by_cases hclosed : found.state.isClosed = true
          · simp only [if_pos hclosed, hself]
          · simp only [if_neg hclosed, hself]
  | undo value =>
      have hvalue : t.find value = .ok path := hfind
      simp only [attempt, hvalue, stepAt?, hget, respond, Option.map_some]
      cases found.step? .undo <;> simp only [hself]

/-- A node responds by taking the step, if it is no rule or one that can be
judged there. -/
theorem respond_of_step? {limit : Nat} {t : ProofTree α} {a : Attempt}
    {step : Step} (hstep : a.step? = some step)
    (hjudges : ∀ rule, step = .apply rule →
      t.state.judges limit rule = true) :
    t.respond limit a
      = match t.step? step with
        | some new => (some true, new)
        | none => (some false, t) := by
  cases a with
  | move value m =>
      cases m with
      | rule r =>
          injection hstep with hstep
          subst hstep
          rw [respond, if_pos (hjudges r rfl)]
      | foreign v => cases hstep
  | undo value =>
      injection hstep with hstep
      subst hstep
      rfl

/-- A node either takes a step, with a rule that can be judged there, or
stays as it is. -/
theorem respond_cases (limit : Nat) (t : ProofTree α) (a : Attempt) :
    (∃ step new, a.step? = some step
        ∧ (∀ rule, step = .apply rule → t.state.judges limit rule = true)
        ∧ t.step? step = some new ∧ t.respond limit a = (some true, new))
      ∨ (t.respond limit a).1 ≠ some true ∧ (t.respond limit a).2 = t := by
  cases a with
  | move value m =>
      cases m with
      | rule r =>
          by_cases hjudges : t.state.judges limit r = true
          · cases hstep : t.step? (.apply r) with
            | none => exact Or.inr (by simp [respond, hjudges, hstep])
            | some new =>
                refine Or.inl ⟨.apply r, new, rfl, ?_, hstep, ?_⟩
                · rintro _ ⟨⟩
                  exact hjudges
                · simp only [respond, if_pos hjudges, hstep]
          · exact Or.inr (by simp [respond, hjudges])
      | foreign v =>
          right
          by_cases hclosed : t.state.isClosed = true
          · simp [respond, hclosed]
          · simp [respond, hclosed]
  | undo value =>
      cases hstep : t.step? .undo with
      | none => exact Or.inr (by simp [respond, hstep])
      | some new =>
          refine Or.inl ⟨.undo, new, rfl, ?_, hstep, ?_⟩
          · intro rule hrule
            cases hrule
          · simp only [respond, hstep]

/-- An attempt that is accepted is a step at the node that it names, with a
rule that can be judged there. Any other attempt changes nothing. -/
theorem attempt_cases (limit : Nat) (t : ProofTree α) (a : Attempt) :
    (∃ path found step new, t.find a.path = .ok path
        ∧ t.get? path = some found ∧ a.step? = some step
        ∧ (∀ rule, step = .apply rule → found.state.judges limit rule = true)
        ∧ found.step? step = some new
        ∧ t.attempt limit a = (some true, t.replace path new))
      ∨ (t.attempt limit a).1 ≠ some true ∧ (t.attempt limit a).2 = t := by
  cases hfind : t.find a.path with
  | error e =>
      rw [attempt_of_error hfind]
      exact Or.inr ⟨by simp, rfl⟩
  | ok path =>
      obtain ⟨found, hget⟩ := get?_of_find hfind
      rw [attempt_eq_respond hfind hget]
      rcases respond_cases limit found a with
        ⟨step, new, hstep, hjudges, hnew, hrespond⟩ | ⟨hanswer, hsame⟩
      · left
        rw [hrespond]
        exact ⟨path, found, step, new, rfl, hget, hstep, hjudges, hnew, rfl⟩
      · right
        rw [hsame]
        exact ⟨hanswer, replace_self hget⟩

-- ======================================================== reachability

/-- The trees that accepted steps lead to. -/
inductive Reaches (start : ProofTree α) : ProofTree α → Prop where
  | refl : Reaches start start
  | step {t t' : ProofTree α} {path : Path} {step : Step} :
      Reaches start t → t.stepAt? path step = some (true, t') →
      Reaches start t'

/-- Any attempt, accepted or not, leads to a tree that accepted steps lead
to. -/
theorem Reaches.attempt {start t : ProofTree α} (h : Reaches start t)
    (limit : Nat) (a : Attempt) : Reaches start (t.attempt limit a).2 := by
  rcases attempt_cases limit t a with
    ⟨path, found, step, new, -, hget, -, -, hnew, hattempt⟩ | ⟨-, hsame⟩
  · rw [hattempt]
    exact h.step (stepAt?_accepted.2 ⟨found, new, hget, hnew, rfl⟩)
  · rw [hsame]
    exact h

/-- Whatever is attempted, the tree is one that accepted steps lead to. -/
theorem reaches_run (limit : Nat) (start : ProofTree α)
    (attempts : List Attempt) : Reaches start (start.run limit attempts) := by
  suffices key : ∀ t, Reaches start t →
      Reaches start (t.run limit attempts) from key start .refl
  induction attempts with
  | nil => intro t ht; exact ht
  | cons a attempts ih => intro t ht; exact ih _ (ht.attempt limit a)

/-- No step changes the root's state. -/
theorem state_of_reaches {start t : ProofTree α} (h : Reaches start t) :
    t.state = start.state := by
  induction h with
  | refl => rfl
  | step _ hstep ih =>
      obtain ⟨found, new, hget, hs, rfl⟩ := stepAt?_accepted.1 hstep
      rw [state_replace hget (state_step? hs)]
      exact ih

-- ======================================================== the invariant

/-- A tree that is what its rules make of its root. -/
inductive Faithful : ProofTree α → Prop where
  | leaf (state : State α) : Faithful (leaf state)
  | node {s : Sequent α} {rule : Rule} {children : List (ProofTree α)} :
      s.Infers rule (children.map state) →
      (∀ child ∈ children, Faithful child) →
      Faithful (.node (.table s) (some rule) children)

theorem Faithful.of_mem {t child : ProofTree α} (h : Faithful t)
    (hmem : child ∈ t.children) : Faithful child := by
  cases h with
  | leaf state => cases hmem
  | node _ hall => exact hall child hmem

/-- Below every node a faithful tree is faithful. -/
theorem Faithful.get? {t found : ProofTree α} (h : Faithful t)
    {path : Path} (hget : t.get? path = some found) : Faithful found := by
  induction path generalizing t with
  | nil =>
      rw [get?_nil] at hget
      injection hget with hget
      rw [← hget]
      exact h
  | cons i path ih =>
      obtain ⟨child, hchild, hrest⟩ := get?_cons_iff.1 hget
      exact ih (h.of_mem (List.mem_of_getElem? hchild)) hrest

/-- A step at the root makes a faithful tree, whatever was there. -/
theorem faithful_step {t new : ProofTree α} {step : Step}
    (h : t.step? step = some new) : Faithful new := by
  rcases step?_cases h with ⟨s, rule, states, -, -, hinf, rfl⟩ | ⟨-, -, rfl⟩
  · refine .node ?_ fun child hmem => ?_
    · rw [map_state_leaf]
      exact hinf
    · obtain ⟨state, -, rfl⟩ := List.mem_map.1 hmem
      exact .leaf state
  · exact .leaf t.state

/-- A faithful tree may take the place of any node with its state. -/
theorem Faithful.replace {t found new : ProofTree α} (h : Faithful t)
    {path : Path} (hget : t.get? path = some found)
    (hstate : new.state = found.state) (hnew : Faithful new) :
    Faithful (t.replace path new) := by
  induction path generalizing t with
  | nil => rw [replace_nil]; exact hnew
  | cons i path ih =>
      obtain ⟨child, hchild, hrest⟩ := get?_cons_iff.1 hget
      cases h with
      | leaf state => cases hchild
      | @node s rule children hinf hall =>
          have hmem : child ∈ children := List.mem_of_getElem? hchild
          rw [replace_cons]
          refine .node (s := s) ?_ fun c hc => ?_
          · -- the child's state stays, so the states are what the rule left
            have hstates : (children.modify i (·.replace path new)).map state
                = children.map state := by
              refine List.ext_getElem? fun j => ?_
              rw [List.getElem?_map, List.getElem?_map]
              by_cases hj : i = j
              · subst hj
                rw [List.getElem?_modify_eq,
                  show children[i]? = some child from hchild]
                exact congrArg some (state_replace hrest hstate)
              · rw [List.getElem?_modify_ne _ _ hj]
            show s.Infers rule
              ((children.modify i (·.replace path new)).map state)
            rw [hstates]
            exact hinf
          · obtain ⟨j, hj⟩ := List.getElem?_of_mem hc
            by_cases hij : i = j
            · subst hij
              rw [show (ProofTree.node (.table s) (some rule) children).children
                = children from rfl, List.getElem?_modify_eq,
                show children[i]? = some child from hchild] at hj
              injection hj with hj
              rw [← hj]
              exact ih (hall child hmem) hrest
            · rw [List.getElem?_modify_ne _ _ hij] at hj
              exact hall c (List.mem_of_getElem? hj)

/-- Steps keep a tree faithful. -/
theorem faithful_of_reaches {start t : ProofTree α} (hstart : Faithful start)
    (h : Reaches start t) : Faithful t := by
  induction h with
  | refl => exact hstart
  | step _ hstep ih =>
      obtain ⟨found, new, hget, hs, rfl⟩ := stepAt?_accepted.1 hstep
      exact ih.replace hget (state_step? hs) (faithful_step hs)

/-- Every tree of a run that begins with a goal is faithful. -/
theorem faithful_run (limit : Nat) (goal : Formula α)
    (attempts : List Attempt) :
    Faithful ((ofGoal goal).run limit attempts) :=
  faithful_of_reaches (.leaf _) (reaches_run limit _ attempts)

end ProofTree

end Deduction
