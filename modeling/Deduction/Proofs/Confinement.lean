/-
Undo forgets whatever has been done below.

Attempts whose paths all begin with one path are confined to the subtree
there. The first of them that is accepted may build something below the
node, later ones replace it, take it back or ask for nodes that are gone;
all of that comes to nothing but another subtree with the same state at its
root (`Confined.run`). A node at which nothing has been done has no more to
it than its state (`Faithful.eq_leaf`). So one undo at the node makes the
tree what it was.
-/
import Deduction.Proofs.Listing

namespace Deduction

theorem Value.ofNat_injective : Function.Injective Value.ofNat := by
  intro i j h
  injection h with h
  injection h

/-- The value names a node at or below a path, if it names one at all. -/
def Attempt.Below (p : Path) (a : Attempt) : Prop :=
  ∃ rest, a.path.elements? = some (p.map .ofNat ++ rest)

namespace ProofTree

variable {α : Type}

/-- Elements that begin with a path lead on from there. -/
theorem find_below {t : ProofTree α} {value : Value} {p path : Path}
    {rest : List Value} (hvalue : value.elements? = some (p.map .ofNat ++ rest))
    (hfind : t.find value = .ok path) : ∃ q, path = p ++ q := by
  obtain ⟨-, hpath⟩ := (find_ok_iff_listed hvalue).1 hfind
  obtain ⟨p', q, rfl, hp', -⟩ := List.map_eq_append_iff.1 hpath.symm
  have hp : p' = p := List.map_injective_iff.2 Value.ofNat_injective hp'
  exact ⟨q, by rw [hp]⟩

variable [BEq α] {limit : Nat} {t u n : ProofTree α} {p : Path}

/-- A node at which nothing has been done has no more to it than its
state. -/
theorem Faithful.eq_leaf (hf : Faithful n) (h : n.children = []) :
    n = ProofTree.leaf n.state := by
  cases hf with
  | leaf state => rfl
  | @node s rule children hinf _ =>
      have hnone : children = [] := h
      subst hnone
      exact absurd rfl hinf.ne_nil

-- ========================================================= confinement

/-- The tree differs from another at and below a path only, and has the
same state at the path itself. -/
def Confined (t : ProofTree α) (p : Path) (state : State α)
    (u : ProofTree α) : Prop :=
  ∃ m, u = t.replace p m ∧ m.state = state

omit [BEq α] in
theorem confined_self (hget : t.get? p = some n) :
    Confined t p n.state t :=
  ⟨n, (replace_self hget).symm, rfl⟩

/-- An attempt below a path keeps a tree confined to it. -/
theorem Confined.attempt {state : State α} (hget : t.get? p = some n)
    (h : Confined t p state u) {a : Attempt} (ha : a.Below p) :
    Confined t p state (u.attempt limit a).2 := by
  obtain ⟨m, rfl, hstate⟩ := h
  have hm : (t.replace p m).get? p = some m := get?_replace_self hget m
  rcases attempt_cases limit (t.replace p m) a with
    ⟨path, found, step, new, hfind, hfound, -, -, hnew, hattempt⟩ | ⟨-, hsame⟩
  · obtain ⟨rest, hvalue⟩ := ha
    obtain ⟨q, rfl⟩ := find_below hvalue hfind
    -- the step is taken inside the subtree, whose root keeps its state
    have hq : m.get? q = some found := by
      rw [get?_append, hm, Option.bind_some] at hfound
      exact hfound
    refine ⟨m.replace q new, ?_, ?_⟩
    · rw [hattempt, replace_append hm, replace_replace]
    · rw [state_replace hq (state_step? hnew)]
      exact hstate
  · rw [hsame]
    exact ⟨m, rfl, hstate⟩

/-- A run of attempts below a node is confined to it as well. -/
theorem Confined.run {state : State α} (hget : t.get? p = some n)
    (h : Confined t p state u) {attempts : List Attempt}
    (hbelow : ∀ a ∈ attempts, a.Below p) :
    Confined t p state (u.run limit attempts) := by
  induction attempts generalizing u with
  | nil => exact h
  | cons a attempts ih =>
      obtain ⟨ha, hrest⟩ := List.forall_mem_cons.1 hbelow
      exact ih (h.attempt hget ha) hrest

-- ================================================================ undo

/-- Undo at a node leaves the node with its state alone, and says whether
there was anything below. -/
theorem respond_undo (m : ProofTree α) (hf : Faithful m) (value : Value) :
    m.respond limit (.undo value)
      = (some (!m.children.isEmpty), leaf m.state) := by
  by_cases h : m.children = []
  · have hnone : m.step? .undo = none := by simp [step?, undo?, h]
    simp only [respond, hnone, h, List.isEmpty_nil]
    rw [← hf.eq_leaf h]
    rfl
  · have hsome : m.step? .undo = some (leaf m.state) := by
      simp [step?, undo?, h]
    simp only [respond, hsome, List.isEmpty_eq_false_iff.2 h]
    rfl

/-- At a node without children of a tree that steps lead to, any attempts
at and below the node and then an undo at it give the tree back, whatever
came of the attempts; and the undo says whether just before it the node had
children. -/
theorem undo_forgets (limit : Nat) {state : State α} {t n : ProofTree α}
    {p : Path} (ht : Reaches (leaf state) t) (hget : t.get? p = some n)
    (hnone : n.children = []) (attempts : List Attempt)
    (hbelow : ∀ a ∈ attempts, a.Below p)
    (value : Value) (hvalue : value.elements? = some (p.map .ofNat)) :
    ∃ m, (t.run limit attempts).get? p = some m
      ∧ (t.run limit attempts).attempt limit (.undo value)
        = (some (!m.children.isEmpty), t) := by
  have hf : Faithful t := faithful_of_reaches (.leaf state) ht
  have hn : n = leaf n.state := (hf.get? hget).eq_leaf hnone
  have hconfined : Confined t p n.state (t.run limit attempts) :=
    (confined_self hget).run hget hbelow
  obtain ⟨m, hrun, hstate⟩ := hconfined
  have hm : (t.run limit attempts).get? p = some m := by
    rw [hrun]
    exact get?_replace_self hget m
  have hfm : Faithful m :=
    (faithful_of_reaches hf (reaches_run limit t attempts)).get? hm
  have hfind : (t.run limit attempts).find value = .ok p :=
    (find_ok_iff_listed hvalue).2 ⟨mem_paths.2 ⟨m, hm⟩, rfl⟩
  refine ⟨m, hm, ?_⟩
  rw [attempt_eq_respond (a := .undo value) hfind hm, respond_undo m hfm,
    hstate, ← hn, hrun, replace_replace, replace_self hget]

/-- A disjunction on the left of a conjunction, and nothing done on the
right, which is a disjunction too. -/
def leftStarted : ProofTree Atom :=
  (ofGoal (.and (.or (.atom (.var "A")) (.atom (.const 0)))
      (.or (.atom (.const 0)) (.imp (.atom (.var "B")) (.atom (.var "B")))))).run 5
    [.move (.array []) (.rule .andIntro),
     .move (.array [.int 0]) (.rule .orIntro2)]

/-- Attempts on the right: one that is accepted, one that is refused, one
that replaces the first, two at paths that lead nowhere, one below, one
that is no rule. -/
def rightTries : List Attempt :=
  [.move (.array [.int 1]) (.rule .orIntro1),
   .move (.array [.int 1, .int 0]) (.rule .implIntro),
   .move (.array [.int 1]) (.rule .orIntro2),
   .undo (.array [.int 1, .int 0, .int 0]),
   .move (.array [.int 1, .text "0"]) (.rule .implIntro),
   .move (.array [.int 1, .int 0]) (.rule .implIntro),
   .move (.array [.int 1, .int 0, .int 0]) (.foreign .null)]

theorem below_rightTries : ∀ a ∈ rightTries, a.Below [1] := by
  unfold rightTries
  simp only [List.forall_mem_cons, List.not_mem_nil, false_implies,
    implies_true, and_true]
  exact ⟨⟨_, rfl⟩, ⟨_, rfl⟩, ⟨_, rfl⟩, ⟨_, rfl⟩, ⟨_, rfl⟩, ⟨_, rfl⟩, ⟨_, rfl⟩⟩

/-- After them there are two nodes below the right side; an undo there has
something to take back, and gives the tree from before. -/
theorem undo_forgets_leftStarted :
    ((leftStarted.run 5 rightTries).get? [1, 0, 0]).isSome = true
      ∧ (leftStarted.run 5 rightTries).attempt 5 (.undo (.array [.int 1]))
        = (some true, leftStarted) := by
  have hreach : Reaches (leaf _) leftStarted := reaches_run 5 _ _
  obtain ⟨m, hm, hundo⟩ := undo_forgets 5 (p := [1]) hreach rfl rfl
    rightTries below_rightTries (.array [.int 1]) rfl
  injection hm with hm
  subst hm
  exact ⟨rfl, hundo⟩

end ProofTree

end Deduction
