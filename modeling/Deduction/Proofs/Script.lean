/-
Scripts: the rules of a proof tree, listed in the order in which they can
be applied again.

A script is a list of rules, each with the value that names the node at
which it is applied. Replaying one succeeds only if every entry finds its
node and is accepted there. The script of a tree lists the nodes that
have a rule, parents before children, so each entry meets its node as the
leaf that the rule above it has put down. `Replays.grow` makes that an
invariant: where a tree's leaf stands, its script grows the tree. It asks
little of the way to replay (`Replays`), so it serves replaying under a
limit of depth as well, and `Faithful.grown`, an induction on how a tree
comes about.

`Derivable` is what scripts can prove, told without trees: a closed
branch, or a sequent with a rule whose states are all derivable. From a
derivation a tree is assembled, and from the tree its script is read off
(`Derivable.exists_script`).
-/
import Deduction.Proofs.Run

namespace Deduction

variable {α : Type}

namespace ProofTree

-- ============================================================= scripts

/-- The nodes of a listing that have a rule, each with the value that
names it. -/
def scriptOf (entries : List (Path × ProofTree α)) : List (Value × Rule) :=
  entries.filterMap fun entry =>
    entry.2.rule?.map fun rule => (Outline.pathValue entry.1, rule)

def script (t : ProofTree α) : List (Value × Rule) := scriptOf t.walk

theorem scriptOf_append (xs ys : List (Path × ProofTree α)) :
    scriptOf (xs ++ ys) = scriptOf xs ++ scriptOf ys :=
  List.filterMap_append

theorem scriptOf_leaf (path : Path) (state : State α) :
    scriptOf ((leaf state).walkFrom path) = [] := rfl

theorem scriptOf_node (path : Path) (state : State α) (rule : Rule)
    (children : List (ProofTree α)) :
    scriptOf ((node state (some rule) children).walkFrom path)
      = (Outline.pathValue path, rule)
          :: scriptOf (walkChildren path 0 children) := rfl

-- =========================================================== replaying

variable [BEq α]

/-- Applies the rules of a script one after the other. There is no answer
if one of them finds no node or is refused. -/
def replay (t : ProofTree α) : List (Value × Rule) → Option (ProofTree α)
  | [] => some t
  | (value, rule) :: script =>
    match t.find value with
    | .error _ => none
    | .ok path =>
      match t.stepAt? path (.apply rule) with
      | some (true, t') => t'.replay script
      | _ => none

/-- The first rule of a script is applied at its node, and the others
follow. -/
theorem replay_cons {t found : ProofTree α} {path : Path} {s : Sequent α}
    {rule : Rule} {states : List (State α)} (hget : t.get? path = some found)
    (hs : found.state = .table s) (hinf : s.Infers rule states)
    (script : List (Value × Rule)) :
    t.replay ((Outline.pathValue path, rule) :: script)
      = (t.replace path (.node (.table s) (some rule) (states.map leaf))).replay
          script := by
  have hstep := stepAt?_accepted.2 ⟨found, _, hget, step?_apply hs hinf, rfl⟩
  rw [replay, find_pathValue hget]
  dsimp only
  rw [hstep]

/-- A script in two parts is replayed part by part. -/
theorem replay_append (t : ProofTree α) (xs ys : List (Value × Rule)) :
    t.replay (xs ++ ys) = (t.replay xs).bind (·.replay ys) := by
  induction xs generalizing t with
  | nil => rfl
  | cons entry xs ih =>
      obtain ⟨value, rule⟩ := entry
      rw [List.cons_append, replay, replay]
      split
      next => rfl
      next path hfind =>
        split
        next t' hstep => exact ih t'
        next => rfl

/-- Replaying is a way of reaching. -/
theorem reaches_of_replay {start t t' : ProofTree α}
    {script : List (Value × Rule)} (hstart : Reaches start t)
    (h : t.replay script = some t') : Reaches start t' := by
  induction script generalizing t with
  | nil =>
      injection h with h
      rw [← h]
      exact hstart
  | cons entry script ih =>
      obtain ⟨value, rule⟩ := entry
      rw [replay] at h
      split at h
      next => cases h
      next path hfind =>
        split at h
        next u hstep => exact ih (hstart.step hstep) h
        next => cases h

-- ============================================================= growing

/-- What growing a tree from its script asks of a way to replay: nothing
is done for no entry, entries are worked off one after the other, and a
rule that may be tried at a sequent puts down the states it leaves. -/
structure Replays (may : State α → Rule → Prop)
    (replay : ProofTree α → List (Value × Rule) → Option (ProofTree α)) :
    Prop where
  nil (t : ProofTree α) : replay t [] = some t
  append (t : ProofTree α) (xs ys : List (Value × Rule)) :
    replay t (xs ++ ys) = (replay t xs).bind (replay · ys)
  cons {t found : ProofTree α} {path : Path} {s : Sequent α} {rule : Rule}
    {states : List (State α)} (hget : t.get? path = some found)
    (hs : found.state = .table s) (hinf : s.Infers rule states)
    (hmay : may (.table s) rule) (script : List (Value × Rule)) :
    replay t ((Outline.pathValue path, rule) :: script)
      = replay (t.replace path
          (.node (.table s) (some rule) (states.map leaf))) script

theorem replays_replay :
    Replays (fun _ _ => True) (replay : ProofTree α → _ → _) where
  nil _ := rfl
  append := replay_append
  cons hget hs hinf _ script := replay_cons hget hs hinf script

/-- All rules of the tree may be tried where they stand. -/
def May (may : State α → Rule → Prop) (t : ProofTree α) : Prop :=
  ∀ path n rule, t.get? path = some n → n.rule? = some rule →
    may n.state rule

namespace Replays

variable {may : State α → Rule → Prop}
  {replay : ProofTree α → List (Value × Rule) → Option (ProofTree α)}

/-- The scripts of children grow the children, the ones on the left being
grown already. -/
theorem grow_children (hr : Replays may replay) {root : State α}
    {rule : Option Rule} {path : Path} (children : List (ProofTree α))
    (hgrow : ∀ child ∈ children, ∀ (t : ProofTree α) (p : Path),
      t.get? p = some (leaf child.state) →
      replay t (scriptOf (child.walkFrom p)) = some (t.replace p child))
    (grown : List (ProofTree α)) (t : ProofTree α)
    (hget : t.get? path
      = some (.node root rule (grown ++ (children.map state).map leaf))) :
    replay t (scriptOf (walkChildren path grown.length children))
      = some (t.replace path (.node root rule (grown ++ children))) := by
  induction children generalizing grown t with
  | nil =>
      have hsame : t.replace path (.node root rule (grown ++ [])) = t :=
        replace_self hget
      rw [hsame]
      exact hr.nil t
  | cons child children ih =>
      rw [List.map_cons, List.map_cons] at hget
      -- the next child is the leaf behind the ones that are grown
      have hleaf : t.get? (path ++ [grown.length])
          = some (leaf child.state) := by
        rw [get?_child hget]
        show (grown ++ _)[grown.length]? = _
        rw [List.getElem?_append_right (Nat.le_refl _), Nat.sub_self,
          List.getElem?_cons_zero]
      have hput : t.replace (path ++ [grown.length]) child
          = t.replace path (.node root rule
              (grown ++ [child] ++ (children.map state).map leaf)) := by
        rw [replace_append hget, replace_cons]
        show t.replace path (.node root rule ((grown ++ _).modify _ _)) = _
        rw [List.modify_eq_take_drop, List.take_left, List.drop_left,
          List.modifyHead_cons, replace_nil, List.append_assoc,
          List.singleton_append]
      have hnext := ih (fun c hc => hgrow c (List.mem_cons_of_mem _ hc))
        (grown ++ [child]) _ (get?_replace_self hget _)
      rw [List.length_append, List.length_singleton] at hnext
      rw [walkChildren, scriptOf_append, hr.append,
        hgrow child List.mem_cons_self t _ hleaf, Option.bind_some, hput,
        hnext, replace_replace, List.append_assoc, List.singleton_append]

/-- Where its leaf stands, a faithful tree is grown by its script. -/
theorem grow (hr : Replays may replay) {t : ProofTree α} (hf : Faithful t)
    (hmay : May may t) (whole : ProofTree α) (path : Path)
    (hget : whole.get? path = some (leaf t.state)) :
    replay whole (scriptOf (t.walkFrom path))
      = some (whole.replace path t) := by
  induction hf generalizing whole path with
  | leaf state =>
      have hsame : whole.replace path (leaf state) = whole :=
        replace_self hget
      rw [scriptOf_leaf, hsame]
      exact hr.nil whole
  | @node s rule children hinf hall ih =>
      have hroot := get?_replace_self hget
        (.node (.table s) (some rule) ((children.map state).map leaf))
      have hchildren : ∀ child ∈ children, May may child := by
        intro child hmem p n r hp hrule
        obtain ⟨i, hi⟩ := List.getElem?_of_mem hmem
        exact hmay (i :: p) n r (get?_cons_iff.2 ⟨child, hi, hp⟩) hrule
      rw [scriptOf_node, hr.cons hget rfl hinf (hmay [] _ _ (get?_nil _) rfl)]
      refine (hr.grow_children children
        (fun child hmem => ih child hmem (hchildren child hmem))
        [] _ hroot).trans ?_
      rw [replace_replace, List.nil_append]

/-- The script of a faithful tree gives the tree. -/
theorem script (hr : Replays may replay) {t : ProofTree α}
    (hf : Faithful t) (hmay : May may t) :
    replay (leaf t.state) t.script = some t := by
  have h := hr.grow hf hmay (leaf t.state) [] (get?_nil _)
  rw [replace_nil] at h
  exact h

end Replays

theorem replay_script {t : ProofTree α} (hf : Faithful t) :
    (leaf t.state).replay t.script = some t :=
  replays_replay.script hf fun _ _ _ _ _ => trivial

-- =================================================== induction on growth

/-- Applies the rules of a script one after the other. There is no answer
if one of them finds no node, or is not wanted there, or is refused. -/
def replayWhere (wanted : State α → Rule → Bool) (t : ProofTree α) :
    List (Value × Rule) → Option (ProofTree α)
  | [] => some t
  | (value, rule) :: script =>
    match t.find value with
    | .error _ => none
    | .ok path =>
      match t.get? path with
      | none => none
      | some found =>
        match found.accept? rule with
        | none => none
        | some new =>
          if wanted found.state rule then
            (t.replace path new).replayWhere wanted script
          else none

/-- So it is if some rules only are wanted. -/
theorem replayWhere_append (wanted : State α → Rule → Bool)
    (t : ProofTree α) (xs ys : List (Value × Rule)) :
    t.replayWhere wanted (xs ++ ys)
      = (t.replayWhere wanted xs).bind (·.replayWhere wanted ys) := by
  induction xs generalizing t with
  | nil => rfl
  | cons entry xs ih =>
      obtain ⟨value, rule⟩ := entry
      rw [List.cons_append, replayWhere, replayWhere]
      split
      next => rfl
      next path hfind =>
        split
        next => rfl
        next found hget =>
          split
          next => rfl
          next new haccept =>
            split
            next => exact ih _
            next => rfl

/-- Replaying the wanted rules replays all scripts that have no others. -/
theorem replays_replayWhere (wanted : State α → Rule → Bool) :
    Replays (fun state rule => wanted state rule = true)
      (replayWhere wanted : ProofTree α → _ → _) where
  nil _ := rfl
  append := replayWhere_append wanted
  cons hget hs hinf hwanted script := by
    have haccept := step?_apply hs hinf
    unfold step? at haccept
    dsimp only at haccept
    rw [replayWhere, find_pathValue hget]
    dsimp only
    rw [hget]
    dsimp only
    rw [haccept]
    dsimp only
    rw [hs, if_pos hwanted]

/-- What holds where nothing has been done, and is kept by the rules of a
tree as they are accepted one after the other, holds of the tree. -/
theorem Faithful.grown {motive : ProofTree α → Prop} {t : ProofTree α}
    (hf : Faithful t) (wanted : State α → Rule → Bool)
    (hwanted : May (fun state rule => wanted state rule = true) t)
    (hleaf : motive (ProofTree.leaf t.state))
    (hgrow : ∀ (u : ProofTree α) (path : Path) (found new : ProofTree α)
      (rule : Rule), motive u → u.get? path = some found →
      found.accept? rule = some new → wanted found.state rule = true →
      motive (u.replace path new)) : motive t := by
  have hscript := (replays_replayWhere wanted).script hf hwanted
  generalize ProofTree.leaf t.state = u at hleaf hscript
  generalize t.script = script at hscript
  induction script generalizing u with
  | nil =>
      injection hscript with hscript
      rw [← hscript]
      exact hleaf
  | cons entry script ih =>
      obtain ⟨value, rule⟩ := entry
      rw [replayWhere] at hscript
      split at hscript
      next => cases hscript
      next path hfind =>
        split at hscript
        next => cases hscript
        next found hget =>
          split at hscript
          next => cases hscript
          next new haccept =>
            split at hscript
            next hok =>
              exact ih _ (hgrow u path found new rule hleaf hget haccept hok)
                hscript
            next => cases hscript

end ProofTree

-- ======================================================== derivability

/-- The states that rules close, whatever the order in which their
branches are worked off. -/
inductive Derivable [BEq α] : State α → Prop where
  | closed : Derivable .closed
  | infer {s : Sequent α} {rule : Rule} {states : List (State α)} :
      s.Infers rule states → (∀ state ∈ states, Derivable state) →
      Derivable (.table s)

namespace Derivable

open ProofTree

variable [BEq α]

theorem one {s : Sequent α} {rule : Rule} {state : State α}
    (hinf : s.Infers rule [state]) (h : Derivable state) :
    Derivable (.table s) :=
  .infer hinf fun _ hmem => List.mem_singleton.1 hmem ▸ h

/-- A sequent is derivable if a rule splits it in two that are. -/
theorem two {s : Sequent α} {rule : Rule} {left right : State α}
    (hinf : s.Infers rule [left, right]) (hl : Derivable left)
    (hr : Derivable right) : Derivable (.table s) := by
  refine .infer hinf fun state hmem => ?_
  rcases List.mem_cons.1 hmem with rfl | hmem
  · exact hl
  · exact List.mem_singleton.1 hmem ▸ hr

section Hypotheses

variable {context : List (Formula α)} {goal left right : Formula α}

/-- Any hypothesis that is the same as the goal will do, at whatever
number it stands. -/
theorem assumption {h : Formula α} (hmem : h ∈ context)
    (hsame : h.same goal = true) : Derivable (.table ⟨context, goal⟩) := by
  obtain ⟨i, hi⟩ := Sequent.exists_hypothesis? (s := ⟨context, goal⟩) hmem
  exact .one (.assumption hi hsame) .closed

theorem andElim (hmem : .and left right ∈ context)
    (h : Derivable (.table ⟨context ++ [left, right], goal⟩)) :
    Derivable (.table ⟨context, goal⟩) := by
  obtain ⟨i, hi⟩ := Sequent.exists_hypothesis? (s := ⟨context, goal⟩) hmem
  exact .one (.andElim hi) h

theorem orElim (hmem : .or left right ∈ context)
    (hl : Derivable (.table ⟨context ++ [left], goal⟩))
    (hr : Derivable (.table ⟨context ++ [right], goal⟩)) :
    Derivable (.table ⟨context, goal⟩) := by
  obtain ⟨i, hi⟩ := Sequent.exists_hypothesis? (s := ⟨context, goal⟩) hmem
  exact .two (.orElim hi) hl hr

end Hypotheses

/-- Trees for the members of a list make a list of trees. -/
theorem exists_children {states : List (State α)}
    (h : ∀ state ∈ states, ∃ t : ProofTree α,
      Faithful t ∧ t.proved = true ∧ t.state = state) :
    ∃ children : List (ProofTree α), children.map state = states
      ∧ allProved children = true ∧ ∀ child ∈ children, Faithful child := by
  induction states with
  | nil => exact ⟨[], rfl, by rw [allProved], fun child hc => nomatch hc⟩
  | cons state states ih =>
      obtain ⟨children, hmap, hall, hf⟩ :=
        ih fun st hst => h st (List.mem_cons_of_mem _ hst)
      obtain ⟨t, htf, htp, rfl⟩ := h state List.mem_cons_self
      refine ⟨t :: children, by rw [List.map_cons, hmap], ?_, ?_⟩
      · rw [allProved, htp, hall, Bool.and_true]
      · intro child hc
        rcases List.mem_cons.1 hc with rfl | hc
        · exact htf
        · exact hf child hc

/-- What is derivable stands at the root of a proved tree. -/
theorem exists_tree {state : State α} (h : Derivable state) :
    ∃ t : ProofTree α, Faithful t ∧ t.proved = true ∧ t.state = state := by
  induction h with
  | closed => exact ⟨leaf .closed, .leaf _, by rw [leaf, proved], rfl⟩
  | @infer s rule states hinf _ ih =>
      obtain ⟨children, rfl, hproved, hf⟩ := exists_children ih
      refine ⟨.node (.table s) (some rule) children, .node hinf hf, ?_, rfl⟩
      have hne : children ≠ [] := by
        rintro rfl
        exact hinf.ne_nil rfl
      rw [proved, hproved, Bool.and_true, List.isEmpty_eq_false_iff.2 hne,
        Bool.not_false]

/-- What is derivable is proved by a script. -/
theorem exists_script {state : State α} (h : Derivable state) :
    ∃ script t, (leaf state).replay script = some t ∧ t.proved = true := by
  obtain ⟨t, hf, hproved, rfl⟩ := h.exists_tree
  exact ⟨t.script, t, replay_script hf, hproved⟩

end Derivable

end Deduction
