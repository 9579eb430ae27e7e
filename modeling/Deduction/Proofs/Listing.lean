/-
The listing of a tree and lookup in it are two ways of addressing nodes.

Lookup follows a path that is given; the listing makes the paths up, and
hands path and depth down as it goes. Two lemmas take what is handed down
away again. The depth is the length of the path (`occurrences_eq`), and
the listing of a tree that stands at a path is its own listing with the
path put before every entry (`walkFrom_eq`). So the listing of a tree is
the root and then the listings of the children, one after the other
(`walk_eq`), which is what in pre-order means.

# The order

Paths come in strictly increasing lexicographic order, in which a path
stands before those that prolong it (`pairwise_walkFrom`). A strictly
increasing list is known by its members. Hence what `mem_walk` says of
single entries settles whole listings: the entries at or below a path are
the listing of the node there, in the same order (`filter_walk`).
-/
import Mathlib.Data.List.Lex
import Mathlib.Data.List.Sort
import Deduction.Proofs.Run

namespace Deduction

/-- Values that are positions, one by one, are just the numbers of these
positions. -/
theorem Value.map_position?_eq_iff {values : List Value} {path : Path} :
    values.map position? = path.map some ↔ values = path.map .ofNat := by
  induction values generalizing path with
  | nil => cases path <;> simp
  | cons v values ih =>
      cases path with
      | nil => simp
      | cons i path =>
          simp only [List.map_cons, List.cons.injEq, ih,
            position?_eq_some_iff]

namespace ProofTree

variable {α : Type}

-- ======================================================== what is handed down

/-- An entry of the listing of a subtree, as an entry of the listing of a
tree in which the subtree stands at a path. -/
def under (p : Path) (entry : Path × ProofTree α) : Path × ProofTree α :=
  (p ++ entry.1, entry.2)

mutual

/-- Listed from a longer path, the nodes are the same, under that path. -/
theorem walkFrom_append (p q : Path) : ∀ t : ProofTree α,
    t.walkFrom (p ++ q) = (t.walkFrom q).map (under p)
  | .node state rule children => by
      rw [walkFrom, walkFrom, List.map_cons,
        walkChildren_append p q 0 children]
      rfl

theorem walkChildren_append (p q : Path) (i : Nat) :
    ∀ ts : List (ProofTree α),
      walkChildren (p ++ q) i ts = (walkChildren q i ts).map (under p)
  | [] => by rw [walkChildren, walkChildren, List.map_nil]
  | t :: ts => by
      rw [walkChildren, walkChildren, List.map_append, List.append_assoc,
        walkFrom_append p (q ++ [i]) t, walkChildren_append p q (i + 1) ts]

end

theorem walkFrom_eq (p : Path) (t : ProofTree α) :
    t.walkFrom p = t.walk.map (under p) := by
  have h := walkFrom_append p [] t
  rw [List.append_nil] at h
  exact h

/-- The nodes below a list of children, child by child, each under its
number. -/
theorem walkChildren_eq (i : Nat) (ts : List (ProofTree α)) :
    walkChildren [] i ts
      = (ts.mapIdx fun j child => child.walk.map (under [i + j])).flatten := by
  induction ts generalizing i with
  | nil => rw [walkChildren]; rfl
  | cons t ts ih =>
      rw [walkChildren, List.nil_append, walkFrom_eq, ih, List.mapIdx_cons,
        List.flatten_cons]
      simp only [Nat.add_zero, Nat.add_assoc, Nat.add_comm 1]

theorem map_mapIdx {β γ δ : Type} (f : Nat → β → γ) (g : γ → δ)
    (l : List β) : (l.mapIdx f).map g = l.mapIdx fun i x => g (f i x) := by
  refine List.ext_getElem? fun i => ?_
  rw [List.getElem?_map, List.getElem?_mapIdx, List.getElem?_mapIdx,
    Option.map_map]
  rfl

/-- The listing in pre-order: the root, and then the listings of the
children in turn. -/
theorem walk_eq (t : ProofTree α) :
    t.walk = ([], t) ::
      (t.children.mapIdx fun i child => child.walk.map (under [i])).flatten := by
  obtain ⟨state, rule, children⟩ := t
  have h := walkChildren_eq 0 children
  simp only [Nat.zero_add] at h
  rw [walk, walkFrom, h]
  rfl

/-- An entry of the listing, with the depth at which it stands. -/
def placed (entry : Path × ProofTree α) : Occurrence α :=
  ⟨entry.1.length, entry.1, entry.2⟩

mutual

/-- The listing with depths is the one without them, since the depth of a
node is the length of its path. -/
theorem occurrencesFrom_eq (path : Path) : ∀ t : ProofTree α,
    t.occurrencesFrom path.length path = (t.walkFrom path).map placed
  | .node state rule children => by
      rw [occurrencesFrom, walkFrom, List.map_cons,
        occurrencesBelow_eq path 0 children]
      rfl

theorem occurrencesBelow_eq (path : Path) (i : Nat) :
    ∀ ts : List (ProofTree α),
      occurrencesBelow (path.length + 1) path i ts
        = (walkChildren path i ts).map placed
  | [] => by rw [occurrencesBelow, walkChildren, List.map_nil]
  | t :: ts => by
      have hdepth : path.length + 1 = (path ++ [i]).length := by
        rw [List.length_append, List.length_singleton]
      rw [occurrencesBelow, walkChildren, List.map_append,
        occurrencesBelow_eq path (i + 1) ts, hdepth,
        occurrencesFrom_eq (path ++ [i]) t]

end

/-- The depth of a node is the length of its path. -/
theorem occurrences_eq (t : ProofTree α) :
    t.occurrences = t.walk.map placed :=
  occurrencesFrom_eq [] t

-- ============================================================ the order

/-- The entry stands at a path before that of the other, which may prolong
it. -/
def Precedes (entry other : Path × ProofTree α) : Prop :=
  List.Lex (· < ·) entry.1 other.1

instance : Std.Asymm (Precedes (α := α)) where
  asymm _ _ h h' := asymm_of (List.Lex (· < ·)) h h'

mutual

/-- A node is listed before those below it, and those before their siblings
to the right. -/
theorem pairwise_walkFrom (path : Path) : ∀ t : ProofTree α,
    (t.walkFrom path).Pairwise Precedes
  | .node state rule children => by
      rw [walkFrom, List.pairwise_cons]
      refine ⟨fun entry hentry => ?_, pairwise_walkChildren path 0 children⟩
      obtain ⟨j, child, p, hpath, -, -⟩ := (mem_walkChildren children).1 hentry
      have h := List.Lex.append_left (· < ·)
        (.nil : List.Lex (· < ·) [] ((0 + j) :: p)) path
      rw [List.append_nil, ← hpath] at h
      exact h

theorem pairwise_walkChildren (path : Path) (i : Nat) :
    ∀ ts : List (ProofTree α), (walkChildren path i ts).Pairwise Precedes
  | [] => by rw [walkChildren]; exact .nil
  | t :: ts => by
      rw [walkChildren, List.pairwise_append]
      refine ⟨pairwise_walkFrom _ t, pairwise_walkChildren path (i + 1) ts, ?_⟩
      -- below one child and below a later one, the paths part at the number
      intro entry hentry other hother
      obtain ⟨p, hp, -⟩ := (mem_walkFrom t).1 hentry
      obtain ⟨j, child, q, hq, -, -⟩ := (mem_walkChildren ts).1 hother
      have hnumber : i < i + 1 + j := by omega
      have h := List.Lex.append_left (· < ·)
        (.rel hnumber : List.Lex (· < ·) (i :: p) ((i + 1 + j) :: q)) path
      rw [← hq, List.append_cons, ← hp] at h
      exact h

end

/-- No two entries have the same path. -/
theorem nodup_walk (t : ProofTree α) : (t.walk.map (·.1)).Nodup := by
  refine List.pairwise_map.2 ((pairwise_walkFrom [] t).imp ?_)
  intro entry other h hsame
  unfold Precedes at h
  rw [hsame] at h
  exact irrefl_of (List.Lex (· < ·)) _ h

/-- The entries at and below a path are the listing of the node there. -/
theorem filter_walk {t n : ProofTree α} {p : Path}
    (hget : t.get? p = some n) :
    t.walk.filter (fun entry => p.isPrefixOf entry.1) = n.walkFrom p := by
  refine List.Pairwise.eq_of_mem_iff ((pairwise_walkFrom [] t).filter _)
    (pairwise_walkFrom p n) ?_
  rintro ⟨q, m⟩
  rw [List.mem_filter, mem_walk, mem_walkFrom, List.isPrefixOf_iff_prefix]
  constructor
  · rintro ⟨hm, r, rfl⟩
    rw [get?_append, hget, Option.bind_some] at hm
    exact ⟨r, rfl, hm⟩
  · rintro ⟨r, rfl, hm⟩
    refine ⟨?_, List.prefix_append p r⟩
    rw [get?_append, hget, Option.bind_some]
    exact hm

-- ========================================================= occurrences

/-- Just the nodes of the tree are listed, with their depths. -/
theorem mem_occurrences {t : ProofTree α} {o : Occurrence α} :
    o ∈ t.occurrences ↔ o.depth = o.path.length
      ∧ t.get? o.path = some o.node := by
  obtain ⟨depth, path, n⟩ := o
  rw [occurrences_eq, List.mem_map]
  constructor
  · rintro ⟨⟨p, m⟩, hmem, h⟩
    injection h with hdepth hpath hnode
    subst hdepth hpath hnode
    exact ⟨rfl, mem_walk.1 hmem⟩
  · rintro ⟨hdepth, hget⟩
    dsimp only at hdepth hget
    subst hdepth
    exact ⟨(path, n), mem_walk.2 hget, rfl⟩

theorem map_path_occurrences (t : ProofTree α) :
    t.occurrences.map (·.path) = t.walk.map (·.1) := by
  rw [occurrences_eq, List.map_map]
  rfl

/-- A path is listed just if it leads somewhere. -/
theorem mem_paths {t : ProofTree α} {path : Path} :
    path ∈ t.occurrences.map (·.path) ↔ ∃ n, t.get? path = some n := by
  rw [map_path_occurrences, List.mem_map]
  constructor
  · rintro ⟨entry, hmem, rfl⟩
    exact ⟨entry.2, mem_walk.1 hmem⟩
  · rintro ⟨n, hget⟩
    exact ⟨(path, n), mem_walk.2 hget, rfl⟩

/-- In pre-order: the root, and then what stands below each child in turn,
one step deeper. -/
theorem occurrences_preorder (t : ProofTree α) :
    t.occurrences = ⟨0, [], t⟩ ::
      (t.children.mapIdx fun i child => child.occurrences.map fun o =>
        ⟨o.depth + 1, i :: o.path, o.node⟩).flatten := by
  rw [occurrences_eq, walk_eq, List.map_cons, List.map_flatten, map_mapIdx]
  simp only [occurrences_eq, List.map_map]
  rfl

/-- Seen from a node, the nodes at and below it stand where its own
listing has them. -/
theorem occurrences_of_get? {t n : ProofTree α} {p : Path}
    (hget : t.get? p = some n) :
    n.occurrences
      = (t.occurrences.filter fun o => p.isPrefixOf o.path).map fun o =>
          ⟨o.depth - p.length, o.path.drop p.length, o.node⟩ := by
  rw [occurrences_eq, occurrences_eq, List.filter_map]
  have hbelow : t.walk.filter ((fun o => p.isPrefixOf o.path) ∘ placed)
      = n.walkFrom p := filter_walk hget
  rw [hbelow, walkFrom_eq, List.map_map, List.map_map]
  refine List.map_congr_left fun entry _ => ?_
  simp [placed, under]

/-- What the elements of a value lead to: the path that is made of them, if
it is listed. -/
theorem find_ok_iff_listed {t : ProofTree α} {value : Value}
    {elements : List Value} (h : value.elements? = some elements)
    {path : Path} :
    t.find value = .ok path ↔
      path ∈ t.occurrences.map (·.path) ∧ elements = path.map .ofNat := by
  rw [find_eq_ok_iff, mem_paths, and_comm]
  constructor
  · rintro ⟨elements', helements, hlocate⟩
    rw [h] at helements
    injection helements with helements
    subst helements
    rw [← Value.map_position?_eq_iff]
    exact locate?_eq_some_iff.1 hlocate
  · rintro ⟨hpath, hlisted⟩
    exact ⟨elements, h, locate?_eq_some_iff.2
      ⟨Value.map_position?_eq_iff.2 hpath, hlisted⟩⟩

/-- A path that is not listed leads nowhere, and the error names it. -/
theorem find_error_of_not_listed {t : ProofTree α} {value : Value}
    {elements : List Value} (h : value.elements? = some elements)
    (hnot : ∀ path ∈ t.occurrences.map (·.path),
      elements ≠ path.map .ofNat) :
    t.find value = .error (.missing elements) := by
  have hlocate : t.locate? elements = none := by
    cases hfound : t.locate? elements with
    | none => rfl
    | some path =>
        have hok : t.find value = .ok path :=
          find_eq_ok_iff.2 ⟨elements, h, hfound⟩
        obtain ⟨hlisted, hpath⟩ := (find_ok_iff_listed h).1 hok
        exact absurd hpath (hnot path hlisted)
  simp only [find, h, hlocate]

/-- The listing addresses the nodes as lookup does, in every tree. It is in
pre-order; it has each node that lookup finds at a path just once, at a
depth which is the length of the path; the paths increase strictly. Of the
sequences of plain values just those that spell a listed path are found,
and the others are reported in full. The listing that begins at a node has
what is listed at and below it; and the lines have the paths of the listing
and are indented by its depths. -/
theorem occurrences_addressed [ToString α] (t : ProofTree α) :
    (t.occurrences = ⟨0, [], t⟩ ::
        (t.children.mapIdx fun i child => child.occurrences.map fun o =>
          ⟨o.depth + 1, i :: o.path, o.node⟩).flatten)
    ∧ (∀ o, o ∈ t.occurrences ↔
        o.depth = o.path.length ∧ t.get? o.path = some o.node)
    ∧ (t.occurrences.map (·.path)).Nodup
    ∧ (t.occurrences.map (·.path)).Pairwise (List.Lex (· < ·))
    ∧ (∀ value elements, value.elements? = some elements →
        (∀ path, t.find value = .ok path ↔
          path ∈ t.occurrences.map (·.path) ∧ elements = path.map .ofNat)
        ∧ ((∀ path ∈ t.occurrences.map (·.path),
            elements ≠ path.map .ofNat) →
          t.find value = .error (.missing elements)))
    ∧ (∀ path n, t.get? path = some n →
        n.occurrences
          = (t.occurrences.filter fun o => path.isPrefixOf o.path).map fun o =>
              ⟨o.depth - path.length, o.path.drop path.length, o.node⟩)
    ∧ ∀ indent : Int, t.lines indent = t.occurrences.map fun o =>
        (o.path,
          String.ofList (Text.spaces (indent * o.depth)) ++ o.node.text) := by
  refine ⟨occurrences_preorder t, fun o => mem_occurrences, ?_, ?_, ?_, ?_, ?_⟩
  · rw [map_path_occurrences]
    exact nodup_walk t
  · rw [map_path_occurrences]
    exact List.pairwise_map.2 (pairwise_walkFrom [] t)
  · intro value elements h
    exact ⟨fun path => find_ok_iff_listed h, find_error_of_not_listed h⟩
  · intro path n hget
    exact occurrences_of_get? hget
  · intro indent
    rw [occurrences_eq, List.map_map]
    rfl

/-- A conjunction in which the left side has been proved. -/
def leftDone : ProofTree Atom :=
  (ofGoal (.and (.imp (.atom (.var "A")) (.atom (.var "A")))
      (.atom (.const 1)))).run 5
    [.move (.array []) (.rule .andIntro),
     .move (.array [.int 0]) (.rule .implIntro),
     .move (.array [.int 0, .int 0]) (.rule (.assumption (.int 0)))]

/-- Five nodes are listed, two of them below the left side. Its path is
found, spelled with whole numbers; spelled with a truth value it is not,
and the error has both elements. -/
theorem occurrences_addressed_leftDone :
    leftDone.occurrences.map (fun o => (o.depth, o.path))
        = [(0, []), (1, [0]), (2, [0, 0]), (3, [0, 0, 0]), (1, [1])]
      ∧ leftDone.find (.array [.int 0, .int 0]) = .ok [0, 0]
      ∧ leftDone.find (.array [.bool false, .int 0])
        = .error (.missing [.bool false, .int 0])
      ∧ ∃ n, leftDone.get? [0] = some n
        ∧ n.occurrences.map (fun o => (o.depth, o.path))
          = [(0, []), (1, [0]), (2, [0, 0])] := by
  obtain ⟨-, -, -, -, hfind, hbelow, -⟩ := occurrences_addressed leftDone
  refine ⟨by decide, ?_, ?_, _, rfl, ?_⟩
  · exact ((hfind (.array [.int 0, .int 0]) _ rfl).1 [0, 0]).2
      ⟨by decide, rfl⟩
  · refine (hfind (.array [.bool false, .int 0]) _ rfl).2 ?_
    intro path _ h
    cases path with
    | nil => cases h
    | cons i path => injection h with h _; cases h
  · rw [hbelow [0] _ rfl]
    decide

end ProofTree

end Deduction
