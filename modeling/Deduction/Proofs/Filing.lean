/-
Things in a dictionary.

A dictionary finds an entry by its hash first and compares the things
afterwards. So an entry could be missed, if a thing was filed under one
hash and an equal one is looked for under another, and it could hold the
position of a thing that is not the first of its equals. Neither happens
to a kind of things on which equality is an equivalence and keys go with
it (`Keyed`), whatever the hash makes of the keys, collisions included.

The invariant of the filing is `Reflects`: the entries answer for every
thing of the kind with the first of the things filed so far that agrees
with it. One thing more keeps it (`Reflects.found`, `Reflects.added`), and
the positions of a whole list follow by induction (`fileFrom?_eq`).

Formulas, states and rules are keyed in this sense. Keys tell less apart
than equality does: the variable `1` and the constant `1` have one key.
Not every formula has a key. A constant goes by its text, and one of too
many digits has none; and the key of a formula that is nested too deeply
is never found out. Formulas within these bounds have one (`Fileable`).
-/
import Mathlib.Order.Bounds.Basic
import Deduction.Proofs.Sameness
import Deduction.Proofs.Shape

namespace Deduction

-- ======================================================== dictionaries

/-- Equality on a kind of things is an equivalence, and equal things have
a key, the same one. -/
structure Keyed {α : Type} (kind : α → Prop) (agree : α → α → Bool)
    (key? : α → Option Key) : Prop where
  refl : ∀ x, kind x → agree x x = true
  symm : ∀ x y, kind x → kind y → agree x y = true → agree y x = true
  trans : ∀ x y z, kind x → kind y → kind z → agree x y = true →
    agree y z = true → agree x z = true
  key : ∀ x y, kind x → kind y → agree x y = true →
    ∃ key, key? x = some key ∧ key? y = some key

/-- The entries answer, for any thing of the kind, with the first of the
things filed so far that agrees with it. -/
def Reflects {α η : Type} [BEq η] (kind : α → Prop) (agree : α → α → Bool)
    (key? : α → Option Key) (hash : Key → η) (entries : List (Filed α η))
    (before : List α) : Prop :=
  ∀ x key, kind x → key? x = some key →
    (filed? agree entries (hash key) x).map (·.position)
      = before.findIdx? fun y => agree y x

section Dictionary

variable {α η : Type} [BEq η] {kind : α → Prop} {agree : α → α → Bool}
  {key? : α → Option Key} {hash : Key → η} {entries : List (Filed α η)}
  {before : List α} {x : α} {key : Key}

theorem Reflects.nil : Reflects kind agree key? hash [] [] :=
  fun _ _ _ _ => rfl

/-- A thing that has an entry changes nothing: what agrees with it agrees
with an earlier thing. -/
theorem Reflects.found (h : Keyed kind agree key?)
    (hr : Reflects kind agree key? hash entries before)
    (hbefore : ∀ y ∈ before, kind y) (hx : kind x) (hkey : key? x = some key)
    (hfound : (filed? agree entries (hash key) x).isSome) :
    Reflects kind agree key? hash entries (before ++ [x]) := by
  intro z keyz hz hkeyz
  rw [hr z keyz hz hkeyz, List.findIdx?_append]
  cases hfirst : before.findIdx? fun y => agree y z with
  | some i => rfl
  | none =>
      have hearlier : (before.findIdx? fun y => agree y x).isSome := by
        rw [← hr x key hx hkey, Option.isSome_map]
        exact hfound
      rw [List.findIdx?_isSome, List.any_eq_true] at hearlier
      obtain ⟨y, hy, hyx⟩ := hearlier
      have hyz := List.findIdx?_eq_none_iff.1 hfirst y hy
      have hxz : agree x z = false := by
        rw [Bool.eq_false_iff]
        intro hxz
        rw [h.trans y x z (hbefore y hy) hx hz hyx hxz] at hyz
        cases hyz
      rw [List.findIdx?_singleton, hxz]
      rfl

/-- A new entry answers for the things that agree with it, since those are
looked for under its hash. -/
theorem Reflects.added [ReflBEq η] (h : Keyed kind agree key?)
    (hr : Reflects kind agree key? hash entries before) (hx : kind x)
    (hkey : key? x = some key) :
    Reflects kind agree key? hash
      (entries ++ [⟨x, hash key, before.length⟩]) (before ++ [x]) := by
  intro z keyz hz hkeyz
  have hold := hr z keyz hz hkeyz
  have hnew : (filed? agree [⟨x, hash key, before.length⟩] (hash keyz) z).map
        (·.position)
      = ([x].findIdx? fun y => agree y z).map (· + before.length) := by
    rw [filed?, List.find?_singleton, List.findIdx?_singleton]
    cases hxz : agree x z with
    | false => simp
    | true =>
        obtain ⟨k, hkx, hkz⟩ := h.key x z hx hz hxz
        rw [hkey] at hkx
        rw [hkeyz] at hkz
        injection hkx with hkx
        injection hkz with hkz
        simp [hkx, hkz]
  unfold filed? at hold hnew ⊢
  rw [List.find?_append, Option.map_or, hold, hnew, List.findIdx?_append]

/-- The first positions behind some elements, element by element: that of
the next one is found among those before it, or is its own. -/
theorem drop_firstPositions (agree : α → α → Bool) (before : List α) (x : α)
    (xs : List α) :
    (firstPositions agree (before ++ x :: xs)).drop before.length
      = (before.findIdx? fun y => agree y x).getD before.length
        :: (firstPositions agree (before ++ [x] ++ xs)).drop
            (before ++ [x]).length := by
  have hlength : before.length
      < (firstPositions agree (before ++ x :: xs)).length := by
    simp [firstPositions]
  have hat : (before ++ x :: xs)[before.length]? = some x := by simp
  have hposition : (firstPositions agree (before ++ x :: xs))[before.length]?
      = some ((before.findIdx? fun y => agree y x).getD before.length) := by
    rw [firstPositions, List.getElem?_mapIdx, hat, List.take_left]
    rfl
  rw [List.getElem?_eq_getElem hlength] at hposition
  injection hposition with hposition
  rw [List.drop_eq_getElem_cons hlength, hposition, List.length_append,
    List.append_assoc]
  rfl

/-- Filing goes on with the first positions, from any state of the
dictionary that reflects what came before. -/
theorem Keyed.fileFrom?_eq [ReflBEq η] (h : Keyed kind agree key?)
    (hr : Reflects kind agree key? hash entries before)
    (hbefore : ∀ y ∈ before, kind y) (xs : List α) (hxs : ∀ x ∈ xs, kind x) :
    fileFrom? hash key? agree entries before.length xs
      = some ((firstPositions agree (before ++ xs)).drop before.length) := by
  induction xs generalizing entries before with
  | nil => simp [fileFrom?, firstPositions]
  | cons x xs ih =>
      rw [List.forall_mem_cons] at hxs
      obtain ⟨hx, hxs⟩ := hxs
      obtain ⟨key, hkey, -⟩ := h.key x x hx hx (h.refl x hx)
      have hbefore' : ∀ y ∈ before ++ [x], kind y := by
        intro y hy
        rcases List.mem_append.1 hy with hy | hy
        · exact hbefore y hy
        · rw [List.mem_singleton.1 hy]
          exact hx
      have hposition := hr x key hx hkey
      rw [drop_firstPositions, ← hposition]
      simp only [fileFrom?, hkey]
      cases hentry : filed? agree entries (hash key) x with
      | some entry =>
          have hr' := hr.found h hbefore hx hkey (by rw [hentry]; rfl)
          have hrest := ih hr' hbefore' hxs
          rw [List.length_append] at hrest ⊢
          exact congrArg (Option.map (entry.position :: ·)) hrest
      | none =>
          have hrest := ih (hr.added h hx hkey) hbefore' hxs
          rw [List.length_append] at hrest ⊢
          exact congrArg (Option.map (before.length :: ·)) hrest

/-- A dictionary has for each thing of a list the position of the first
that agrees with it. -/
theorem Keyed.fileAll?_eq [ReflBEq η] (h : Keyed kind agree key?)
    (hash : Key → η) (xs : List α) (hxs : ∀ x ∈ xs, kind x) :
    fileAll? hash key? agree xs = some (firstPositions agree xs) :=
  h.fileFrom?_eq .nil (by simp) xs hxs

/-- The position that is listed for an element is the first one at which
there is an element that agrees with it. -/
theorem Keyed.isLeast_firstPositions (h : Keyed kind agree key?)
    {xs : List α} (hxs : ∀ x ∈ xs, kind x) {i : Nat} (hi : xs[i]? = some x) :
    ∃ j, (firstPositions agree xs)[i]? = some j
      ∧ IsLeast {j | ∃ y, xs[j]? = some y ∧ agree y x = true} j := by
  refine ⟨((xs.take i).findIdx? fun y => agree y x).getD i, ?_, ?_⟩
  · rw [firstPositions, List.getElem?_mapIdx, hi]
    rfl
  · cases hfirst : (xs.take i).findIdx? fun y => agree y x with
    | none =>
        rw [List.findIdx?_eq_none_iff] at hfirst
        rw [Option.getD_none]
        refine ⟨⟨x, hi, h.refl x (hxs x (List.mem_of_getElem? hi))⟩, ?_⟩
        rintro j ⟨y, hy, hyx⟩
        by_contra hlt
        have hmem : y ∈ xs.take i := by
          refine List.mem_of_getElem? (i := j) ?_
          rw [List.getElem?_take_of_lt (Nat.lt_of_not_le hlt), hy]
        rw [hfirst y hmem] at hyx
        cases hyx
    | some j =>
        obtain ⟨hj, hyx, hleast⟩ := List.findIdx?_eq_some_iff_getElem.1 hfirst
        have hji : j < i := by
          rw [List.length_take] at hj
          omega
        rw [Option.getD_some]
        refine ⟨⟨(xs.take i).get ⟨j, hj⟩, ?_, hyx⟩, ?_⟩
        · rw [← List.getElem?_take_of_lt hji]
          exact List.getElem?_eq_getElem hj
        · rintro m ⟨y, hy, hyx'⟩
          by_contra hlt
          have hmj := Nat.lt_of_not_le hlt
          rw [← List.getElem?_take_of_lt (hmj.trans hji)] at hy
          obtain ⟨hm, rfl⟩ := List.getElem?_eq_some_iff.1 hy
          exact hleast m hmj hyx'

end Dictionary

/-- A kind of things that dictionaries can be keyed by. Whatever hash of
the keys is used, a dictionary that is filled from a list has for each
element the position of the first one equal to it. -/
structure Files {α : Type} (kind : α → Prop) (agree : α → α → Bool)
    (key? : α → Option Key) : Prop extends Keyed kind agree key? where
  first : ∀ (η : Type) [BEq η] [ReflBEq η] (hash : Key → η) (xs : List α),
    (∀ x ∈ xs, kind x) →
      fileAll? hash key? agree xs = some (firstPositions agree xs)
        ∧ ∀ (i : Nat) (x : α), xs[i]? = some x →
            ∃ j, (firstPositions agree xs)[i]? = some j
              ∧ IsLeast {j | ∃ y, xs[j]? = some y ∧ agree y x = true} j

/-- So values with keys that fit their agreement are filed. -/
theorem Keyed.files {α : Type} {kind : α → Prop} {agree : α → α → Bool}
    {key? : α → Option Key} (h : Keyed kind agree key?) :
    Files kind agree key? where
  toKeyed := h
  first _ _ _ hash xs hxs :=
    ⟨h.fileAll?_eq hash xs hxs, fun _ _ => h.isLeast_firstPositions hxs⟩

namespace Formula

/-- All leaves are variables named by texts, or constants. -/
abbrev Proper (f : Formula Leaf) : Prop := f.allAtoms Leaf.isAtom = true

/-- All leaves are variables named by texts, or constants that are short
enough to be written, and the connectives are not nested too deeply. -/
structure Fileable (limit : Nat) (f : Formula Leaf) : Prop where
  short : f.allAtoms Leaf.isShortAtom = true
  depth : f.depth ≤ limit

/-- A weaker test of all atoms holds if a stronger one does. -/
theorem allAtoms_mono {α : Type} {p q : α → Bool}
    (h : ∀ a, p a = true → q a = true) {f : Formula α}
    (hf : f.allAtoms p = true) : f.allAtoms q = true := by
  rw [← all_iff_allAtoms] at hf ⊢
  induction f with
  | atom a => exact h a hf
  | binary op left right ihl ihr => exact ⟨ihl hf.1, ihr hf.2⟩

/-- A formula with a key has no plain values in it. -/
theorem Fileable.proper {limit : Nat} {f : Formula Leaf}
    (hf : f.Fileable limit) : f.Proper :=
  allAtoms_mono (fun leaf h => by
    cases leaf with
    | atom a => rfl
    | _ => cases h) hf.short

/-- Leaves that have keys make a key for the formula. -/
theorem exists_keyWith {f : Formula Leaf}
    (hf : f.allAtoms Leaf.isShortAtom = true) :
    ∃ key, f.keyWith Leaf.key? = some key := by
  induction f with
  | atom a =>
      cases a with
      | atom x =>
          have hx : x.isShort = true := hf
          refine ⟨.text x.text, ?_⟩
          rw [keyWith, Leaf.key?, if_pos hx]
      | _ => cases hf
  | binary op left right ihl ihr =>
      obtain ⟨hl, hr⟩ := Bool.and_eq_true_iff.1 hf
      obtain ⟨kl, hkl⟩ := ihl hl
      obtain ⟨kr, hkr⟩ := ihr hr
      rw [keyWith, hkl, hkr]
      exact ⟨_, rfl⟩

/-- Among the proper formulas just those within the bounds are not kept
out of a dictionary. -/
theorem keyObstacle?_eq_none_iff {limit : Nat} {f : Formula Leaf}
    (hf : f.Proper) : f.keyObstacle? limit = none ↔ f.Fileable limit := by
  have hleaf : f.allAtoms (fun leaf => leaf.keyObstacle?.isNone)
      = f.allAtoms Leaf.isShortAtom := by
    induction f with
    | atom a =>
        cases a with
        | atom x => exact Atom.isNone_obstacle? x
        | _ => cases hf
    | binary op left right ihl ihr =>
        obtain ⟨hl, hr⟩ := Bool.and_eq_true_iff.1 hf
        rw [allAtoms, allAtoms, ihl hl, ihr hr]
  unfold keyObstacle?
  rw [obstacle?_eq_none_iff, hleaf]
  exact ⟨fun h => ⟨h.2, h.1⟩, fun h => ⟨h.depth, h.short⟩⟩

/-- Just those within the bounds have a key. -/
theorem exists_key?_iff {limit : Nat} {f : Formula Leaf} (hf : f.Proper) :
    (∃ key, f.key? limit = some key) ↔ f.Fileable limit := by
  rw [← keyObstacle?_eq_none_iff hf, key?]
  cases hfound : f.keyObstacle? limit with
  | some found => simp
  | none =>
      have hshort := ((keyObstacle?_eq_none_iff hf).1 hfound).short
      exact iff_of_true (exists_keyWith hshort) rfl

theorem Fileable.exists_key? {limit : Nat} {f : Formula Leaf}
    (hf : f.Fileable limit) : ∃ key, f.key? limit = some key :=
  (exists_key?_iff hf.proper).2 hf

end Formula

-- ============================================================ states

namespace State

/-- All formulas of the state are proper. -/
def Proper (s : State Leaf) : Prop := ∀ f ∈ s.formulas, f.Proper

/-- All formulas of the state are within the bounds. -/
def Fileable (limit : Nat) (s : State Leaf) : Prop :=
  ∀ f ∈ s.formulas, f.Fileable limit

theorem Fileable.proper {limit : Nat} {s : State Leaf}
    (hs : s.Fileable limit) : s.Proper :=
  fun f hf => (hs f hf).proper

theorem forall_formulas_table {s : Sequent Leaf} {p : Formula Leaf → Prop} :
    (∀ f ∈ (State.table s).formulas, p f)
      ↔ (∀ h ∈ s.context, p h) ∧ p s.goal := by
  simp [formulas, or_imp, forall_and]

/-- Hypotheses that have keys have them all together. -/
theorem exists_mapM_key? {limit : Nat} {hs : List (Formula Leaf)}
    (hhs : ∀ h ∈ hs, h.Fileable limit) :
    ∃ keys, hs.mapM (Formula.key? limit) = some keys := by
  induction hs with
  | nil => exact ⟨_, rfl⟩
  | cons h hs ih =>
      rw [List.forall_mem_cons] at hhs
      obtain ⟨key, hkey⟩ := hhs.1.exists_key?
      obtain ⟨keys, hkeys⟩ := ih hhs.2
      rw [List.mapM_cons, hkey, hkeys]
      exact ⟨_, rfl⟩

/-- A state whose formulas have keys has a key. -/
theorem exists_keyWith {limit : Nat} {s : State Leaf}
    (hs : s.Fileable limit) :
    ∃ key, s.keyWith (Formula.key? limit) = some key := by
  cases s with
  | closed => exact ⟨_, rfl⟩
  | table s =>
      rw [Fileable, forall_formulas_table] at hs
      obtain ⟨keys, hkeys⟩ := exists_mapM_key? hs.1
      obtain ⟨key, hkey⟩ := hs.2.exists_key?
      rw [keyWith, hkeys, hkey]
      exact ⟨_, rfl⟩

end State

-- ============================================================= rules

namespace Rule

/-- The number of the rule, if it has one, is a scalar. -/
def Proper (r : Rule) : Prop :=
  ∀ index, r.index? = some index → index.isScalar = true

/-- Rules are the same if they have one name and, where both have a number,
the same number. -/
theorem same_iff {r s : Rule} :
    r.same s = true ↔ r.name = s.name
      ∧ ∀ i j, r.index? = some i → s.index? = some j → i.same j = true := by
  cases r <;> cases s <;> simp [same, name, index?]

theorem index?_eq_none_iff {r s : Rule} (h : r.name = s.name) :
    r.index? = none ↔ s.index? = none := by
  cases r <;> cases s <;> simp [name, index?] at h ⊢

theorem key?_of_none {r : Rule} (h : r.index? = none) :
    r.key? = some (.text r.name) := by
  rw [key?, h]

theorem key?_of_some {r : Rule} {i : Value} (h : r.index? = some i) :
    r.key? = i.key?.map (.pair (.text r.name)) := by
  rw [key?, h]

/-- A rule with a key is the same as those with that key. -/
theorem same_iff_key? {r s : Rule} {key : Key} (hr : r.key? = some key) :
    r.same s = true ↔ s.key? = some key := by
  have hcomm : r.name = s.name ↔ s.name = r.name := eq_comm
  rw [same_iff]
  cases hi : r.index? with
  | none =>
      rw [key?_of_none hi] at hr
      injection hr with hr
      subst hr
      cases hj : s.index? with
      | none => simp [key?_of_none hj, hcomm]
      | some j =>
          have hname : r.name ≠ s.name := fun hname => by
            rw [(index?_eq_none_iff hname).1 hi] at hj
            cases hj
          simp [key?_of_some hj, hname]
  | some i =>
      rw [key?_of_some hi] at hr
      obtain ⟨k, hk, rfl⟩ := Option.map_eq_some_iff.1 hr
      cases hj : s.index? with
      | none =>
          have hname : r.name ≠ s.name := fun hname => by
            rw [(index?_eq_none_iff hname).2 hj] at hi
            cases hi
          simp [key?_of_none hj, hname]
      | some j =>
          simp [key?_of_some hj, Value.same_iff_key? hk, hcomm, and_comm]

/-- A rule whose number has a key has a key. -/
theorem exists_key? {r : Rule} (hr : r.Proper) :
    ∃ key, r.key? = some key := by
  cases hi : r.index? with
  | none => exact ⟨_, key?_of_none hi⟩
  | some i =>
      obtain ⟨key, hkey⟩ := Value.isScalar_iff.1 (hr i hi)
      rw [key?_of_some hi, hkey]
      exact ⟨_, rfl⟩

end Rule

-- ========================================================== equality

end Deduction
