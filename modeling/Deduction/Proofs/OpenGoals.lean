/-
What is open, and what a step makes of it.

Whether a tree is proved is found out by a recursion that stops at closed
branches and at nodes without children. The open goals are picked from the
listing. The two agree on faithful trees only: there a closed branch has
nothing below it, and a rule leaves at least one child.

The list of open goals is put together from those of the children
(`openGoals_flatten`), so a replacement cuts it in three: what is open
before the node, below it and after it. The outer parts do not depend on
what is put in the node's place (`exists_openGoals_replace`). All that a
step does to the list follows from that by looking at the node alone.
-/
import Deduction.Proofs.Listing
import Deduction.Proofs.Soundness

namespace Deduction.ProofTree

variable {α : Type}

-- ============================================================= the list

/-- A tree's open goals: the root, if it is one, and those of the children
in turn. -/
theorem openGoals_eq (t : ProofTree α) :
    t.openGoals
      = (if t.isOpenGoal then [([], t)] else [])
        ++ (t.children.mapIdx fun i child =>
            child.openGoals.map (under [i])).flatten := by
  have hbelow : (t.children.mapIdx fun i child =>
        child.walk.map (under [i])).flatten.filter (·.2.isOpenGoal)
      = (t.children.mapIdx fun i child =>
          child.openGoals.map (under [i])).flatten := by
    rw [List.filter_flatten, map_mapIdx]
    simp only [List.filter_map]
    rfl
  rw [← hbelow]
  unfold openGoals
  rw [walk_eq, List.filter_cons]
  by_cases h : t.isOpenGoal = true
  · rw [if_pos h, if_pos h]
    rfl
  · rw [if_neg h, if_neg h]
    rfl

theorem isOpenGoal_iff {t : ProofTree α} :
    t.isOpenGoal = true ↔ t.children = [] ∧ t.state.isClosed = false := by
  unfold isOpenGoal
  rw [Bool.and_eq_true, List.isEmpty_iff, Bool.not_eq_true']

/-- An open goal is the only one in its own listing. -/
theorem openGoals_of_isOpenGoal {t : ProofTree α} (h : t.isOpenGoal = true) :
    t.openGoals = [([], t)] := by
  rw [openGoals_eq, if_pos h, (isOpenGoal_iff.1 h).1]
  rfl

/-- The open goals of a node with children are theirs, in turn. -/
theorem openGoals_flatten {t : ProofTree α} (h : t.children ≠ []) :
    t.openGoals
      = (t.children.mapIdx fun i child =>
          child.openGoals.map (under [i])).flatten := by
  rw [openGoals_eq, if_neg fun hopen => h (isOpenGoal_iff.1 hopen).1]
  rfl

/-- Of the children that a rule puts down, the sequents are open. -/
theorem openGoals_put (state : State α) (rule : Option Rule)
    {states : List (State α)} (hne : states ≠ []) :
    (node state rule (states.map leaf)).openGoals
      = (states.mapIdx fun i s => ([i], leaf s)).filter fun entry =>
          !entry.2.state.isClosed := by
  have hchildren : (node state rule (states.map leaf)).children ≠ [] :=
    fun h => hne (List.map_eq_nil_iff.1 h)
  -- each child is an open goal by itself, unless it is closed
  have hopen : ((states.map leaf).mapIdx fun i child =>
        child.openGoals.map (under [i]))
      = ((states.mapIdx fun i s => ([i], leaf s)).map fun entry =>
          [entry]).map (List.filter fun entry => !entry.2.state.isClosed) := by
    refine List.ext_getElem? fun i => ?_
    simp only [List.getElem?_mapIdx, List.getElem?_map, Option.map_map]
    cases states[i]? with
    | none => rfl
    | some s => cases s <;> rfl
  rw [openGoals_flatten hchildren]
  show ((states.map leaf).mapIdx _).flatten = _
  rw [hopen, ← List.filter_flatten, ← List.flatMap_def,
    List.flatMap_singleton']

theorem nodup_openGoals (t : ProofTree α) : (t.openGoals.map (·.1)).Nodup :=
  (nodup_walk t).sublist (List.filter_sublist.map _)

-- ========================================================= replacements

theorem map_under_nil (entries : List (Path × ProofTree α)) :
    entries.map (under []) = entries :=
  List.map_id entries

theorem map_under_cons (i : Nat) (p : Path)
    (entries : List (Path × ProofTree α)) :
    (entries.map (under p)).map (under [i]) = entries.map (under (i :: p)) := by
  rw [List.map_map]
  rfl

/-- Whatever is put in the place of a node, what is open before it and
after it stays. -/
theorem exists_openGoals_replace {t found : ProofTree α} {p : Path}
    (hget : t.get? p = some found) :
    ∃ before after, ∀ new, (t.replace p new).openGoals
      = before ++ new.openGoals.map (under p) ++ after := by
  induction p generalizing t with
  | nil =>
      refine ⟨[], [], fun new => ?_⟩
      rw [replace_nil, map_under_nil, List.nil_append, List.append_nil]
  | cons i p ih =>
      obtain ⟨child, hchild, hrest⟩ := get?_cons_iff.1 hget
      obtain ⟨hi, rfl⟩ := List.getElem?_eq_some_iff.1 hchild
      obtain ⟨before, after, hcut⟩ := ih hrest
      -- the children are cut at the one that the path goes through
      let openIn (offset : Nat) (ts : List (ProofTree α)) :=
        (ts.mapIdx fun j c => c.openGoals.map (under [j + offset])).flatten
      refine ⟨openIn 0 (t.children.take i) ++ before.map (under [i]),
        after.map (under [i]) ++ openIn (i + 1) (t.children.drop (i + 1)),
        fun new => ?_⟩
      have hmodify : (t.replace (i :: p) new).children
          = t.children.take i
            ++ t.children[i].replace p new :: t.children.drop (i + 1) := by
        rw [children_replace_cons, List.modify_eq_take_cons_drop hi]
      have hlength : (t.children.take i).length = i :=
        List.length_take_of_le (Nat.le_of_lt hi)
      rw [openGoals_flatten (by rw [hmodify]; simp), hmodify,
        List.mapIdx_append, List.mapIdx_cons, List.flatten_append,
        List.flatten_cons, hlength, hcut]
      simp only [openIn, Nat.zero_add, Nat.add_zero, List.map_append,
        map_under_cons, List.append_assoc, Nat.add_assoc, Nat.add_comm 1]

variable [BEq α]

/-- An accepted rule puts the sequents that it leaves in the place of the
open goal at which it was applied. -/
theorem openGoals_apply {t t' n : ProofTree α} {path : Path} {rule : Rule}
    (hopen : (path, n) ∈ t.openGoals)
    (hstep : t.stepAt? path (.apply rule) = some (true, t')) :
    ∃ before after, t.openGoals = before ++ (path, n) :: after
      ∧ (∀ entry ∈ before ++ after, entry.1 ≠ path)
      ∧ t'.openGoals
        = before
          ++ (((n.state.refine rule).mapIdx fun i s =>
              (path ++ [i], leaf s)).filter fun entry =>
                !entry.2.state.isClosed)
          ++ after := by
  obtain ⟨hget, hgoal⟩ := mem_openGoals.1 hopen
  obtain ⟨found, new, hget', hnew, rfl⟩ := stepAt?_accepted.1 hstep
  rw [hget] at hget'
  injection hget' with hget'
  subst hget'
  obtain ⟨before, after, hcut⟩ := exists_openGoals_replace hget
  have hlist : t.openGoals = before ++ (path, n) :: after := by
    have h := hcut n
    rw [replace_self hget, openGoals_of_isOpenGoal hgoal] at h
    rw [h]
    simp [under]
  refine ⟨before, after, hlist, ?_, ?_⟩
  · intro entry hentry hsame
    have hnodup := nodup_openGoals t
    rw [hlist, List.map_append, List.map_cons, List.nodup_middle,
      List.nodup_cons, ← List.map_append] at hnodup
    exact hnodup.1 (List.mem_map.2 ⟨entry, hentry, hsame⟩)
  · rcases step?_cases hnew with
      ⟨s, rule', states, hrule, hs, hinf, rfl⟩ | ⟨hundo, -, -⟩
    · injection hrule with hrule
      subst hrule
      have hstates : n.state.refine rule = states := by
        rw [hs]
        exact hinf.refine_eq
      have hput : (states.mapIdx fun i s => (path ++ [i], leaf s))
          = (states.mapIdx fun i s => ([i], leaf s)).map (under path) := by
        rw [map_mapIdx]
        rfl
      rw [hcut, openGoals_put _ _ hinf.ne_nil, hstates, hput, List.filter_map]
      rfl
    · cases hundo

/-- The test for a finished proof and the list of what is open agree in
every tree that steps lead to, from whatever state: a node is proved just
if nothing is open below it; what is open below a node with children is
what is open below each of them, in turn; and a rule that is accepted at an
open goal puts the sequents that it leaves in that goal's place, between
the same entries as before. -/
theorem openGoals_follow {state : State α} {t : ProofTree α}
    (h : Reaches (leaf state) t) :
    (∀ path n, t.get? path = some n →
      (n.proved = true ↔ n.openGoals = [])
      ∧ (n.children ≠ [] → n.openGoals
          = (n.children.mapIdx fun i child => child.openGoals.map fun entry =>
              (i :: entry.1, entry.2)).flatten))
    ∧ ∀ path n rule t', (path, n) ∈ t.openGoals →
      t.stepAt? path (.apply rule) = some (true, t') →
      ∃ before after, t.openGoals = before ++ (path, n) :: after
        ∧ (∀ entry ∈ before ++ after, entry.1 ≠ path)
        ∧ t'.openGoals
          = before
            ++ (((n.state.refine rule).mapIdx fun i s =>
                (path ++ [i], leaf s)).filter fun entry =>
                  !entry.2.state.isClosed)
            ++ after := by
  have hf : Faithful t := faithful_of_reaches (.leaf state) h
  refine ⟨fun path n hget => ⟨?_, openGoals_flatten⟩, ?_⟩
  · have hn : Faithful n := hf.get? hget
    exact ⟨hn.openGoals_of_proved, hn.proved_of_openGoals⟩
  · intro path n rule t' hopen hstep
    exact openGoals_apply hopen hstep

/-- An implication to a conjunction, taken apart so far that both sides of
the conjunction are open. -/
def parted : ProofTree Atom :=
  (ofGoal (.imp (.atom (.var "A"))
      (.and (.atom (.var "A"))
        (.imp (.atom (.const 2)) (.atom (.const 2)))))).run 5
    [.move (.array []) (.rule .implIntro),
     .move (.array [.int 0]) (.rule .andIntro)]

/-- The left side, as it is found in the tree. -/
def partedLeft : ProofTree Atom :=
  leaf (.table ⟨[.atom (.var "A")], .atom (.var "A")⟩)

/-- Two goals are open, so the proof is not finished. Closing the left one
takes it from the list, with nothing in its place. -/
theorem openGoals_follow_parted :
    parted.openGoals.map (·.1) = [[0, 0], [0, 1]]
      ∧ parted.proved = false
      ∧ ∃ t' before after,
        parted.stepAt? [0, 0] (.apply (.assumption (.int 0)))
            = some (true, t')
        ∧ parted.openGoals = before ++ ([0, 0], partedLeft) :: after
        ∧ t'.openGoals = before ++ [] ++ after := by
  have hreach : Reaches (leaf _) parted := reaches_run 5 _ _
  obtain ⟨hnodes, happly⟩ := openGoals_follow hreach
  refine ⟨by decide, ?_, ?_⟩
  · rw [Bool.eq_false_iff]
    intro hproved
    have hnone := (hnodes [] parted rfl).1.1 hproved
    cases hnone
  · have hmem : ([0, 0], partedLeft) ∈ parted.openGoals :=
      List.mem_cons_self
    obtain ⟨before, after, hlist, -, hnew⟩ :=
      happly [0, 0] partedLeft (.assumption (.int 0)) _ hmem rfl
    exact ⟨_, before, after, rfl, hlist, hnew⟩

end Deduction.ProofTree
