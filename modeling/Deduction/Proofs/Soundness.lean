/-
Soundness of whole runs, finished or not.

At every node of every tree that a run gives, what is still open below
implies what stands at the node. The argument is local: a faithful tree
has, at each node, the states that a rule left, and rules are sound. So
the open goals carry up through the tree (`Faithful.holds`), and a tree
without open goals proves its root outright (`openGoals_of_proved`).
-/
import Deduction.Formula.Read
import Deduction.Proofs.Run
import Deduction.Proofs.Semantics

namespace Deduction.ProofTree

universe u

variable {α : Type}

-- ========================================================== open goals

theorem mem_openGoals_of_child {t child n : ProofTree α} {i : Nat}
    {p : Path} (hchild : t.children[i]? = some child)
    (h : (p, n) ∈ child.openGoals) : (i :: p, n) ∈ t.openGoals := by
  obtain ⟨hget, hopen⟩ := mem_openGoals.1 h
  exact mem_openGoals.2 ⟨get?_cons_iff.2 ⟨child, hchild, hget⟩, hopen⟩

/-- If all children are proved each of them is. -/
theorem proved_of_allProved {ts : List (ProofTree α)} {t : ProofTree α}
    (h : allProved ts = true) (hmem : t ∈ ts) : t.proved = true := by
  induction ts with
  | nil => cases hmem
  | cons u ts ih =>
      unfold allProved at h
      rw [Bool.and_eq_true] at h
      rcases List.mem_cons.1 hmem with rfl | hmem
      · exact h.1
      · exact ih h.2 hmem

/-- And the other way round. -/
theorem allProved_of_forall {ts : List (ProofTree α)}
    (h : ∀ t ∈ ts, t.proved = true) : allProved ts = true := by
  induction ts with
  | nil => unfold allProved; rfl
  | cons t ts ih =>
      obtain ⟨ht, hts⟩ := List.forall_mem_cons.1 h
      unfold allProved
      rw [ht, ih hts, Bool.and_true]

/-- Below a proved node of a faithful tree nothing is open. -/
theorem Faithful.not_isOpenGoal_of_proved [BEq α] {t n : ProofTree α}
    {p : Path} (hf : Faithful t) (hp : t.proved = true)
    (hget : t.get? p = some n) : n.isOpenGoal = false := by
  induction p generalizing t with
  | nil =>
      rw [get?_nil] at hget
      injection hget with hget
      subst hget
      cases hf with
      | leaf state =>
          cases state with
          | closed => rfl
          | table s => cases hp
      | @node s rule children hinf hall =>
          unfold proved at hp
          rw [Bool.and_eq_true, Bool.not_eq_true'] at hp
          show (children.isEmpty && _) = false
          rw [hp.1, Bool.false_and]
  | cons i p ih =>
      obtain ⟨child, hchild, hrest⟩ := get?_cons_iff.1 hget
      cases hf with
      | leaf state => cases hchild
      | @node s rule children hinf hall =>
          have hmem : child ∈ children := List.mem_of_getElem? hchild
          unfold proved at hp
          rw [Bool.and_eq_true] at hp
          exact ih (hall child hmem) (proved_of_allProved hp.2 hmem) hrest

/-- A proved faithful tree has no open goals. -/
theorem Faithful.openGoals_of_proved [BEq α] {t : ProofTree α}
    (hf : Faithful t) (hp : t.proved = true) : t.openGoals = [] := by
  refine List.eq_nil_iff_forall_not_mem.2 ?_
  rintro ⟨p, n⟩ hmem
  obtain ⟨hget, hopen⟩ := mem_openGoals.1 hmem
  rw [hf.not_isOpenGoal_of_proved hp hget] at hopen
  cases hopen

/-- A faithful tree without open goals is proved. -/
theorem Faithful.proved_of_openGoals [BEq α] {t : ProofTree α}
    (hf : Faithful t) (h : t.openGoals = []) : t.proved = true := by
  induction hf with
  | leaf state =>
      cases state with
      | closed => unfold ProofTree.leaf proved; rfl
      | table s => cases h
  | @node s rule children hinf hall ih =>
      have hne : children ≠ [] := by
        rintro rfl
        exact hinf.ne_nil rfl
      have hproved : allProved children = true := by
        refine allProved_of_forall fun child hmem => ih child hmem ?_
        refine List.eq_nil_iff_forall_not_mem.2 fun entry hentry => ?_
        obtain ⟨i, hi⟩ := List.getElem?_of_mem hmem
        have hup := mem_openGoals_of_child (i := i)
          (t := .node (.table s) (some rule) children) hi hentry
        rw [h] at hup
        cases hup
      unfold proved
      rw [hproved, Bool.and_true, List.isEmpty_eq_false_iff.2 hne]
      rfl

-- =========================================================== soundness

/-- The open goals of a faithful tree imply its root. -/
theorem Faithful.holds [BEq α] [LawfulBEq α] {H : Type u}
    [HeytingAlgebra H] (v : α → H) {t : ProofTree α} (hf : Faithful t)
    (hopen : ∀ entry ∈ t.openGoals, entry.2.state.Holds v) :
    t.state.Holds v := by
  induction hf with
  | leaf state =>
      cases state with
      | closed => trivial
      | table s =>
          -- the leaf is an open goal itself
          have hself : ([], ProofTree.leaf (.table s))
              ∈ (ProofTree.leaf (.table s)).openGoals :=
            mem_openGoals.2 ⟨get?_nil _, rfl⟩
          exact hopen _ hself
  | @node s rule children hinf hall ih =>
      refine hinf.holds v fun state hstate => ?_
      obtain ⟨child, hmem, rfl⟩ := List.mem_map.1 hstate
      refine ih child hmem fun entry hentry => ?_
      obtain ⟨i, hi⟩ := List.getElem?_of_mem hmem
      exact hopen (i :: entry.1, entry.2)
        (mem_openGoals_of_child (i := i) hi hentry)

/-- What a proved faithful tree was begun for is ⊤ under any valuation. -/
theorem Faithful.value_of_proved [BEq α] [LawfulBEq α] {H : Type u}
    [HeytingAlgebra H] (v : α → H) {t : ProofTree α} {goal : Formula α}
    (hf : Faithful t) (hstate : t.state = .ofGoal goal)
    (hp : t.proved = true) : goal.value v = ⊤ := by
  refine (holds_ofGoal v).1 ?_
  rw [← hstate]
  refine hf.holds v fun entry hmem => ?_
  rw [hf.openGoals_of_proved hp] at hmem
  cases hmem

/-- Whatever is attempted on the way, what is open below a node of the
tree implies the node in every Heyting algebra; and a goal that ends up
proved is intuitionistically valid, hence a tautology. -/
theorem run_sound (limit : Nat) (goal : Goal) (attempts : List Attempt) :
    (∀ path n, ((ofGoal goal).run limit attempts).get? path = some n →
      ∀ (H : Type u) [HeytingAlgebra H] (v : Atom → H),
        (∀ entry ∈ n.openGoals, entry.2.state.Holds v) → n.state.Holds v)
    ∧ (((ofGoal goal).run limit attempts).proved = true →
      (∀ (H : Type u) [HeytingAlgebra H] (v : Atom → H), goal.value v = ⊤)
        ∧ ∀ v : Atom → Bool, goal.truth v = true) := by
  have hf := faithful_run limit goal attempts
  have hroot : ((ofGoal goal).run limit attempts).state = .ofGoal goal :=
    state_of_reaches (reaches_run limit (ofGoal goal) attempts)
  refine ⟨?_, ?_⟩
  · intro path n hget H _ v hopen
    exact (hf.get? hget).holds v hopen
  · intro hp
    refine ⟨fun H _ v => hf.value_of_proved v hroot hp, fun v => ?_⟩
    rw [← Formula.value_eq_truth]
    exact hf.value_of_proved v hroot hp

/-- A disjunction may be turned round. -/
def swap : Goal :=
  .imp (.or (.atom (.var "A")) (.atom (.var "B")))
    (.or (.atom (.var "B")) (.atom (.var "A")))

/-- A proof of it in twelve attempts: four that are refused or end in an
error, a wrong turn that is taken back, and the rest. -/
def swapping : List Attempt :=
  [.undo (.array []), .move (.text "x") (.rule .andIntro),
   .move (.array []) (.rule .andIntro), .move (.array []) (.foreign .null),
   .move (.array []) (.rule .implIntro),
   .move (.array [.int 0]) (.rule .orIntro1), .undo (.array [.int 0]),
   .move (.array [.int 0]) (.rule (.orElim (.int 0))),
   .move (.array [.int 0, .int 0]) (.rule .orIntro2),
   .move (.array [.int 0, .int 0, .int 0]) (.rule (.assumption (.int 1))),
   .move (.array [.int 0, .int 1]) (.rule .orIntro1),
   .move (.array [.int 0, .int 1, .int 0]) (.rule (.assumption (.int 1)))]

/-- After ten attempts one goal is open below the first child, and it
holds if just `A` does; after twelve the goal is proved. -/
theorem run_sound_swapping :
    (∃ n, ((ofGoal swap).run 1000 (swapping.take 10)).get? [0] = some n
        ∧ n.openGoals.map (·.1) = [[1]]
        ∧ n.state.Holds (fun a => a == Atom.var "A"))
      ∧ ((ofGoal swap).run 1000 swapping).proved = true
      ∧ swap.value (fun a => a == Atom.var "A") = ⊤
      ∧ swap.truth (fun a => a == Atom.var "B") = true := by
  have hproved : ((ofGoal swap).run 1000 swapping).proved = true := by decide
  have hvalid := (run_sound 1000 swap swapping).2 hproved
  refine ⟨⟨_, rfl, by decide, ?_⟩, hproved, hvalid.1 Bool _, hvalid.2 _⟩
  exact (run_sound 1000 swap (swapping.take 10)).1 [0] _ rfl Bool _ (by decide)

end Deduction.ProofTree
