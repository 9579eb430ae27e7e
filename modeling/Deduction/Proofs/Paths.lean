/-
Paths: looking a node up, putting another in its place, and listing all
of them.

Looking up (`get?`) and replacing (`replace`) recurse along the path, so
their laws are inductions on it: lookup composes over concatenated paths,
a replaced node is found again, and a replacement far down is a
replacement nearer the root. Outside a replacement no node shows that it
has happened (`label_get?_replace`), and replacements at paths that are
`Apart` may change places. The listing (`walk`) recurses along the tree
instead. `mem_walk` joins the two: an entry of the listing is a path with
the node that lookup finds there, so facts about listings, the open goals
among them, become facts about lookup.

A path that arrives as a plain value is worth what `find` makes of it,
which is always a path that leads somewhere (`get?_of_find`); and each
such path has a plain value that names it (`find_pathValue`).
-/
import Deduction.Proof.View
import Deduction.Proofs.Inference

namespace Deduction.ProofTree

variable {α : Type}

-- ============================================================== lookup

@[simp] theorem get?_nil (t : ProofTree α) : t.get? [] = some t := by
  unfold get?
  rfl

theorem get?_cons (t : ProofTree α) (i : Nat) (path : Path) :
    t.get? (i :: path) = t.children[i]?.bind (·.get? path) := by
  cases h : t.children[i]? with
  | none => simp [get?, h]
  | some child => simp [get?, h]

theorem get?_cons_iff {t n : ProofTree α} {i : Nat} {path : Path} :
    t.get? (i :: path) = some n ↔
      ∃ child, t.children[i]? = some child ∧ child.get? path = some n := by
  rw [get?_cons, Option.bind_eq_some_iff]

/-- Lookup along a longer path goes by way of the shorter one. -/
theorem get?_append (t : ProofTree α) (p q : Path) :
    t.get? (p ++ q) = (t.get? p).bind (·.get? q) := by
  induction p generalizing t with
  | nil => simp
  | cons i p ih =>
      rw [List.cons_append, get?_cons, get?_cons, Option.bind_assoc]
      cases t.children[i]? with
      | none => rfl
      | some child => exact ih child

/-- One step down from a node leads to its child. -/
theorem get?_child {t u : ProofTree α} {p : Path} {i : Nat}
    (h : t.get? p = some u) :
    t.get? (p ++ [i]) = u.children[i]? := by
  rw [get?_append, h, Option.bind_some, get?_cons]
  cases u.children[i]? with
  | none => rfl
  | some child => simp

-- ========================================================= replacement

@[simp] theorem replace_nil (t new : ProofTree α) :
    t.replace [] new = new := by
  unfold replace
  rfl

theorem replace_cons (t new : ProofTree α) (i : Nat) (path : Path) :
    t.replace (i :: path) new
      = .node t.state t.rule? (t.children.modify i (·.replace path new)) := by
  cases t
  rfl

@[simp] theorem children_replace_cons (t new : ProofTree α) (i : Nat)
    (path : Path) :
    (t.replace (i :: path) new).children
      = t.children.modify i (·.replace path new) := by
  rw [replace_cons]
  rfl

/-- What is done to the children depends on the child it is done to. -/
theorem modify_congr {children : List (ProofTree α)} {i : Nat}
    {child : ProofTree α} (hchild : children[i]? = some child)
    {f g : ProofTree α → ProofTree α} (hfg : f child = g child) :
    children.modify i f = children.modify i g := by
  refine List.ext_getElem? fun j => ?_
  by_cases hj : i = j
  · subst hj
    rw [List.getElem?_modify_eq, List.getElem?_modify_eq, hchild,
      Option.map_eq_map, Option.map_eq_map, Option.map_some,
      Option.map_some, hfg]
  · rw [List.getElem?_modify_ne _ _ hj, List.getElem?_modify_ne _ _ hj]

/-- The state of the root stays, unless the root itself is replaced. -/
theorem state_replace {t found new : ProofTree α} {path : Path}
    (hget : t.get? path = some found) (hstate : new.state = found.state) :
    (t.replace path new).state = t.state := by
  cases path with
  | nil =>
      rw [get?_nil] at hget
      injection hget with hget
      rw [replace_nil, hstate, hget]
  | cons i path => rw [replace_cons]; rfl

/-- What is put in the place of a node is found there. -/
theorem get?_replace_self {t found : ProofTree α} {path : Path}
    (hget : t.get? path = some found) (new : ProofTree α) :
    (t.replace path new).get? path = some new := by
  induction path generalizing t with
  | nil => simp
  | cons i path ih =>
      obtain ⟨child, hchild, hrest⟩ := get?_cons_iff.1 hget
      rw [get?_cons, children_replace_cons, List.getElem?_modify_eq, hchild]
      exact ih hrest

/-- Of two replacements at one path the second counts. -/
theorem replace_replace (t : ProofTree α) (path : Path)
    (first second : ProofTree α) :
    (t.replace path first).replace path second = t.replace path second := by
  induction path generalizing t with
  | nil => simp
  | cons i path ih =>
      have hfun : ((·.replace path second) ∘ (·.replace path first) :
          ProofTree α → ProofTree α) = (·.replace path second) := by
        funext child
        exact ih child
      rw [replace_cons _ second, children_replace_cons,
        List.modify_modify_eq, hfun, replace_cons t first,
        replace_cons t second]
      rfl

/-- Putting back what is there changes nothing. -/
theorem replace_self {t found : ProofTree α} {path : Path}
    (hget : t.get? path = some found) : t.replace path found = t := by
  induction path generalizing t with
  | nil =>
      rw [get?_nil] at hget
      injection hget with hget
      rw [replace_nil, hget]
  | cons i path ih =>
      obtain ⟨child, hchild, hrest⟩ := get?_cons_iff.1 hget
      rw [replace_cons, modify_congr hchild (g := id) (ih hrest),
        List.modify_id]
      cases t
      rfl

/-- A replacement along a longer path happens inside the node that the
shorter one leads to. -/
theorem replace_append {t found : ProofTree α} {p : Path}
    (hget : t.get? p = some found) (q : Path) (new : ProofTree α) :
    t.replace (p ++ q) new = t.replace p (found.replace q new) := by
  induction p generalizing t with
  | nil =>
      rw [get?_nil] at hget
      injection hget with hget
      rw [List.nil_append, replace_nil, hget]
  | cons i p ih =>
      obtain ⟨child, hchild, hrest⟩ := get?_cons_iff.1 hget
      rw [List.cons_append, replace_cons, replace_cons,
        modify_congr hchild (g := (·.replace p (found.replace q new)))
          (ih hrest)]

/-- What a node shows without a look at what is below it. -/
def label (t : ProofTree α) : State α × Option Rule × Nat :=
  (t.state, t.rule?, t.children.length)

/-- A replacement shows at the nodes inside it only. -/
theorem label_get?_replace {t new : ProofTree α} {p q : Path}
    (hpq : ¬ p <+: q) :
    ((t.replace p new).get? q).map label = (t.get? q).map label := by
  induction p generalizing t q with
  | nil => exact absurd List.nil_prefix hpq
  | cons i p ih =>
      cases q with
      | nil =>
          rw [replace_cons, get?_nil, get?_nil, Option.map_some,
            Option.map_some]
          simp [label, state, rule?, children]
      | cons j q =>
          rw [get?_cons, get?_cons, children_replace_cons]
          by_cases hij : i = j
          · subst hij
            have hrest : ¬ p <+: q := fun h =>
              hpq (List.cons_prefix_cons.2 ⟨rfl, h⟩)
            rw [List.getElem?_modify_eq]
            cases t.children[i]? with
            | none => rfl
            | some child => exact ih hrest
          · rw [List.getElem?_modify_ne _ _ hij]

/-- A node of a tree with a replacement is inside the replacement, or has
the state and the rule of the node that was at its path before. -/
theorem get?_replace_cases {t found new n : ProofTree α} {path q : Path}
    (hget : t.get? path = some found)
    (h : (t.replace path new).get? q = some n) :
    (∃ r, q = path ++ r ∧ new.get? r = some n)
      ∨ ∃ m, t.get? q = some m ∧ m.state = n.state ∧ m.rule? = n.rule? := by
  by_cases hbelow : path <+: q
  · obtain ⟨r, rfl⟩ := hbelow
    rw [get?_append, get?_replace_self hget, Option.bind_some] at h
    exact Or.inl ⟨r, rfl, h⟩
  · have hlabel : ((t.replace path new).get? q).map label
        = (t.get? q).map label := label_get?_replace hbelow
    rw [h, Option.map_some] at hlabel
    obtain ⟨m, hm, hsame⟩ := Option.map_eq_some_iff.1 hlabel.symm
    simp only [label, Prod.mk.injEq] at hsame
    exact Or.inr ⟨m, hm, hsame.1, hsame.2.1⟩

/-- Neither path leads through the node at the other. -/
def Apart (p q : Path) : Prop := ¬ p <+: q ∧ ¬ q <+: p

theorem Apart.symm {p q : Path} (h : Apart p q) : Apart q p := ⟨h.2, h.1⟩

theorem not_apart_nil (q : Path) : ¬ Apart [] q :=
  fun h => h.1 List.nil_prefix

theorem apart_cons_iff {i : Nat} {p q : Path} :
    Apart (i :: p) (i :: q) ↔ Apart p q := by
  simp [Apart, List.cons_prefix_cons]

/-- Away from a replacement the nodes are what they were. -/
theorem get?_replace_of_apart {t new : ProofTree α} {p q : Path}
    (h : Apart p q) : (t.replace p new).get? q = t.get? q := by
  induction p generalizing t q with
  | nil => exact absurd h (not_apart_nil q)
  | cons i p ih =>
      cases q with
      | nil => exact absurd h.symm (not_apart_nil _)
      | cons j q =>
          rw [get?_cons, get?_cons, children_replace_cons]
          by_cases hij : i = j
          · subst hij
            rw [List.getElem?_modify_eq]
            cases t.children[i]? with
            | none => rfl
            | some child => exact ih (apart_cons_iff.1 h)
          · rw [List.getElem?_modify_ne _ _ hij]

/-- Replacements away from each other may be made in either order. -/
theorem replace_comm {t first second : ProofTree α} {p q : Path}
    (h : Apart p q) :
    (t.replace p first).replace q second
      = (t.replace q second).replace p first := by
  induction p generalizing t q with
  | nil => exact absurd h (not_apart_nil q)
  | cons i p ih =>
      cases q with
      | nil => exact absurd h.symm (not_apart_nil _)
      | cons j q =>
          obtain ⟨state, rule, children⟩ := t
          refine congrArg (node state rule) ?_
          by_cases hij : i = j
          · subst hij
            rw [List.modify_modify_eq, List.modify_modify_eq]
            congr 1
            funext child
            exact ih (apart_cons_iff.1 h)
          · exact List.modify_modify_ne _ _ _ hij

-- ============================================================= listing

mutual

/-- The listing of a tree that stands at a path: each node that lookup
finds in it, at the path prolonged by the one that leads to it. -/
theorem mem_walkFrom {path q : Path} {n : ProofTree α} :
    ∀ t : ProofTree α, (q, n) ∈ t.walkFrom path ↔
      ∃ p, q = path ++ p ∧ t.get? p = some n
  | .node state rule children => by
      rw [walkFrom, List.mem_cons, mem_walkChildren children]
      constructor
      · rintro (h | ⟨j, child, p, rfl, hchild, hget⟩)
        · injection h with hq hn
          exact ⟨[], by rw [hq, List.append_nil], by rw [get?_nil, hn]⟩
        · exact ⟨j :: p, by rw [Nat.zero_add],
            get?_cons_iff.2 ⟨child, hchild, hget⟩⟩
      · rintro ⟨p, rfl, hget⟩
        -- the first step of the path tells which child the node is below
        cases p with
        | nil =>
            rw [get?_nil] at hget
            injection hget with hget
            exact Or.inl (by rw [List.append_nil, hget])
        | cons j p =>
            obtain ⟨child, hchild, hrest⟩ := get?_cons_iff.1 hget
            exact Or.inr ⟨j, child, p, by rw [Nat.zero_add], hchild, hrest⟩

theorem mem_walkChildren {path q : Path} {n : ProofTree α} {i : Nat} :
    ∀ ts : List (ProofTree α), (q, n) ∈ walkChildren path i ts ↔
      ∃ j child p, q = path ++ (i + j) :: p ∧ ts[j]? = some child
        ∧ child.get? p = some n
  | [] => by simp [walkChildren]
  | t :: ts => by
      rw [walkChildren, List.mem_append, mem_walkFrom t, mem_walkChildren ts]
      constructor
      · rintro (⟨p, rfl, hget⟩ | ⟨j, child, p, rfl, hchild, hget⟩)
        · exact ⟨0, t, p, by simp, rfl, hget⟩
        · exact ⟨j + 1, child, p, by rw [Nat.add_assoc, Nat.add_comm 1],
            hchild, hget⟩
      · rintro ⟨j, child, p, rfl, hchild, hget⟩
        cases j with
        | zero =>
            rw [List.getElem?_cons_zero] at hchild
            injection hchild with hchild
            exact Or.inl ⟨p, by simp, by rw [hchild]; exact hget⟩
        | succ j =>
            exact Or.inr ⟨j, child, p,
              by rw [Nat.add_assoc, Nat.add_comm 1], hchild, hget⟩

end

/-- The listing holds exactly what lookup finds. -/
theorem mem_walk {t n : ProofTree α} {p : Path} :
    (p, n) ∈ t.walk ↔ t.get? p = some n := by
  unfold walk
  rw [mem_walkFrom]
  constructor
  · rintro ⟨q, rfl, hget⟩
    exact hget
  · intro hget
    exact ⟨p, rfl, hget⟩

/-- The open goals are the sequents without children. -/
theorem mem_openGoals {t n : ProofTree α} {p : Path} :
    (p, n) ∈ t.openGoals ↔ t.get? p = some n ∧ n.isOpenGoal = true := by
  unfold openGoals
  rw [List.mem_filter, mem_walk]

-- ======================================================== plain values

/-- A path of values is followed value by value, each of which must be the
number of a child. -/
theorem locate?_cons_iff {t : ProofTree α} {v : Value} {values : List Value}
    {path : Path} :
    t.locate? (v :: values) = some path ↔
      ∃ i child rest, v.position? = some i ∧ t.children[i]? = some child
        ∧ child.locate? values = some rest ∧ path = i :: rest := by
  rw [locate?]
  cases v.position? with
  | none => simp
  | some i =>
      cases hchild : t.children[i]? with
      | none => simp [hchild]
      | some child =>
          simp [hchild, Option.map_eq_some_iff, eq_comm (a := path)]

/-- The elements of a value name a path just if they are the numbers it is
made of and it leads somewhere. -/
theorem locate?_eq_some_iff {t : ProofTree α} {values : List Value}
    {path : Path} :
    t.locate? values = some path ↔
      values.map Value.position? = path.map some
        ∧ ∃ found, t.get? path = some found := by
  induction values generalizing t path with
  | nil =>
      unfold locate?
      cases path <;> simp
  | cons v values ih =>
      rw [locate?_cons_iff]
      constructor
      · rintro ⟨i, child, rest, hv, hchild, hlocate, rfl⟩
        obtain ⟨hvalues, found, hget⟩ := ih.1 hlocate
        refine ⟨?_, found, get?_cons_iff.2 ⟨child, hchild, hget⟩⟩
        rw [List.map_cons, List.map_cons, hv, hvalues]
      · rintro ⟨hvalues, found, hget⟩
        cases path with
        | nil => cases hvalues
        | cons i rest =>
            obtain ⟨child, hchild, hget⟩ := get?_cons_iff.1 hget
            rw [List.map_cons, List.map_cons, List.cons.injEq] at hvalues
            exact ⟨i, child, rest, hvalues.1, hchild,
              ih.2 ⟨hvalues.2, found, hget⟩, rfl⟩

/-- A value leads to a node if it has elements and they do. -/
theorem find_eq_ok_iff {t : ProofTree α} {value : Value} {path : Path} :
    t.find value = .ok path ↔
      ∃ elements, value.elements? = some elements
        ∧ t.locate? elements = some path := by
  unfold find
  cases helements : value.elements? with
  | none => simp
  | some elements =>
      cases hlocate : t.locate? elements with
      | none => simp [hlocate]
      | some found => simp [hlocate]

/-- Whatever value names a path, the path leads somewhere. -/
theorem get?_of_find {t : ProofTree α} {value : Value} {path : Path}
    (h : t.find value = .ok path) : ∃ found, t.get? path = some found := by
  obtain ⟨elements, -, hlocate⟩ := find_eq_ok_iff.1 h
  exact (locate?_eq_some_iff.1 hlocate).2

/-- A value names the same path in every tree in which the path leads
somewhere, whatever the atoms. -/
theorem find_of_get? {β : Type} {t : ProofTree α} {u n : ProofTree β}
    {value : Value} {path : Path} (h : t.find value = .ok path)
    (hget : u.get? path = some n) : u.find value = .ok path := by
  obtain ⟨elements, helements, hlocate⟩ := find_eq_ok_iff.1 h
  have hvalues := (locate?_eq_some_iff.1 hlocate).1
  exact find_eq_ok_iff.2
    ⟨elements, helements, locate?_eq_some_iff.2 ⟨hvalues, n, hget⟩⟩

/-- The value that shows a path to others also finds it. -/
theorem find_pathValue {t found : ProofTree α} {path : Path}
    (h : t.get? path = some found) :
    t.find (Outline.pathValue path) = .ok path := by
  refine find_eq_ok_iff.2 ⟨_, rfl, locate?_eq_some_iff.2 ⟨?_, found, h⟩⟩
  rw [List.map_map]
  rfl

end Deduction.ProofTree
