/-
Sameness of plain values, of leaves and of formulas of foreign make.

A plain value is compared by what it stands for. Numbers of all types are
one kind of thing, so `1`, `1.0` and `true` are the same; arrays are
compared in order, objects by the names of their fields. That this is an
equivalence relation is plain for values that have a key, which are the
same just if their keys are equal (`same_iff_key?`). For the others it is
proved along `WellFormed`: a field that is given twice would be compared
twice with the first of its namesakes.

A leaf that is a plain value is the same as nothing. So sameness of
formulas with such leaves is symmetric and transitive, and a formula is the
same as itself just if it has none of them; on formulas of atoms alone
sameness is equality.
-/
import Mathlib.Data.List.Forall2
import Mathlib.Data.List.Perm.Subperm
import Deduction.Formula.Leaf
import Deduction.Proofs.Inference

namespace Deduction

namespace Value

-- ============================================================= scalars

/-- Neither an array nor an object. -/
def isScalar : Value → Bool
  | .array _ | .object _ => false
  | _ => true

/-- The values with a key are nothing, texts and numbers, and the key says
which of them it is. -/
theorem key?_eq_some_iff {v : Value} {key : Key} :
    v.key? = some key ↔ (.null = v ∧ .null = key)
      ∨ (∃ s, .text s = v ∧ .text s = key)
      ∨ ∃ m, v.number? = some m ∧ .number m = key := by
  cases v with
  | null => simp [key?, number?]
  | text s => simp [key?, number?]
  | _ => simp [key?, Option.map_eq_some_iff]

/-- Just the scalars have a key. -/
theorem isScalar_iff {v : Value} :
    v.isScalar = true ↔ ∃ key, v.key? = some key := by
  cases v with
  | array vs => simp [isScalar, key?, number?]
  | object fs => simp [isScalar, key?, number?]
  | float x => cases x <;> exact ⟨fun _ => ⟨_, rfl⟩, fun _ => rfl⟩
  | _ => exact ⟨fun _ => ⟨_, rfl⟩, fun _ => rfl⟩

theorem null_same_iff {w : Value} : null.same w = true ↔ .null = w := by
  cases w <;> simp [same, number?]

theorem text_same_iff {s : String} {w : Value} :
    (text s).same w = true ↔ .text s = w := by
  cases w <;> simp [same, number?]

/-- A number is the same as what has the same amount, in whatever way it is
written: as a truth value, a whole number or a decimal. -/
theorem same_iff_number? {v w : Value} {m : Number} (h : v.number? = some m) :
    v.same w = true ↔ w.number? = some m := by
  cases v with
  | null => cases h
  | text s => cases h
  | array vs => cases h
  | object fs => cases h
  | _ =>
      cases hw : w.number? with
      | none => cases w <;> simp [same, h, hw]
      | some n =>
          have hcomm : m = n ↔ n = m := eq_comm
          cases w <;> simp [same, h, hw, hcomm]

/-- A value with a key is the same as those with that key. -/
theorem same_iff_key? {v w : Value} {key : Key} (h : v.key? = some key) :
    v.same w = true ↔ w.key? = some key := by
  rcases key?_eq_some_iff.1 h with ⟨rfl, rfl⟩ | ⟨s, rfl, rfl⟩ | ⟨m, hv, rfl⟩
  · rw [null_same_iff, key?_eq_some_iff]
    simp
  · rw [text_same_iff, key?_eq_some_iff]
    simp
  · rw [same_iff_number? hv, key?_eq_some_iff]
    simp

-- ================================================== arrays and objects

/-- Lists are compared element by element. -/
theorem sameElements_iff {vs ws : List Value} :
    sameElements vs ws = true ↔
      List.Forall₂ (fun v w => v.same w = true) vs ws := by
  induction vs generalizing ws with
  | nil => cases ws <;> simp [sameElements]
  | cons v vs ih => cases ws <;> simp [sameElements, ih]

/-- Fields are looked up by name, so their order does not matter. -/
theorem sameFields_iff {fs gs : List (String × Value)} :
    sameFields fs gs = true ↔
      ∀ f ∈ fs, ∃ w, lookup f.1 gs = some w ∧ f.2.same w = true := by
  induction fs with
  | nil => simp [sameFields]
  | cons f fs ih =>
      obtain ⟨name, v⟩ := f
      rw [sameFields, List.forall_mem_cons, ← ih]
      cases lookup name gs <;> simp

/-- An array is the same as an array with the same elements. -/
theorem array_same_iff {vs : List Value} {w : Value} :
    (array vs).same w = true ↔
      ∃ ws, w = .array ws
        ∧ List.Forall₂ (fun v w => v.same w = true) vs ws := by
  cases w <;> simp [same, number?, sameElements_iff]

/-- An object is the same as an object with as many fields, if each of its
own is found there. -/
theorem object_same_iff {fs : List (String × Value)} {w : Value} :
    (object fs).same w = true ↔
      ∃ gs, w = .object gs ∧ fs.length = gs.length
        ∧ ∀ f ∈ fs, ∃ w, lookup f.1 gs = some w ∧ f.2.same w = true := by
  cases w with
  | object gs =>
      rw [same, Bool.and_eq_true, beq_iff_eq, sameFields_iff]
      simp
  | _ => simp [same, number?]

/-- What is found under a name stands there under it. -/
theorem mem_of_lookup {fs : List (String × Value)} {name : String}
    {v : Value} (h : lookup name fs = some v) : (name, v) ∈ fs := by
  induction fs with
  | nil => cases h
  | cons f fs ih =>
      unfold lookup at h
      split at h
      next hname =>
        injection h with h
        rw [← hname, ← h]
        exact List.mem_cons_self
      next => exact List.mem_cons_of_mem _ (ih h)

/-- And what stands there is found, if no name occurs twice. -/
theorem lookup_of_mem {fs : List (String × Value)}
    (hnames : (fs.map (·.1)).Nodup) {f : String × Value} (h : f ∈ fs) :
    lookup f.1 fs = some f.2 := by
  induction fs with
  | nil => cases h
  | cons g fs ih =>
      rw [List.map_cons, List.nodup_cons] at hnames
      unfold lookup
      rcases List.mem_cons.1 h with rfl | h
      · rw [if_pos rfl]
      · have hother : g.1 ≠ f.1 := fun hsame =>
          hnames.1 (List.mem_map.2 ⟨f, h, hsame.symm⟩)
        rw [if_neg hother]
        exact ih hnames.2 h

-- ===================================================== well-formed values

/-- No object in the value has two fields of one name. -/
inductive WellFormed : Value → Prop where
  | scalar {v : Value} : v.isScalar = true → WellFormed v
  | array {vs : List Value} : (∀ v ∈ vs, WellFormed v) →
      WellFormed (.array vs)
  | object {fs : List (String × Value)} : (fs.map (·.1)).Nodup →
      (∀ f ∈ fs, WellFormed f.2) → WellFormed (.object fs)

namespace WellFormed

/-- Sameness is transitive. The induction is over the first value; a field
of it is followed by its name through the other two. -/
theorem same_trans {u v w : Value} (hu : u.WellFormed)
    (huv : u.same v = true) (hvw : v.same w = true) : u.same w = true := by
  induction hu generalizing v w with
  | scalar hscalar =>
      obtain ⟨key, hkey⟩ := isScalar_iff.1 hscalar
      have hv := (same_iff_key? hkey).1 huv
      exact (same_iff_key? hkey).2 ((same_iff_key? hv).1 hvw)
  | array _ ih =>
      obtain ⟨vs, rfl, hfirst⟩ := array_same_iff.1 huv
      obtain ⟨ws, rfl, hsecond⟩ := array_same_iff.1 hvw
      refine array_same_iff.2 ⟨ws, rfl, ?_⟩
      rw [List.forall₂_iff_get] at hfirst hsecond ⊢
      refine ⟨hfirst.1.trans hsecond.1, fun i hi hi' => ?_⟩
      have hiv : i < vs.length := by rw [← hfirst.1]; exact hi
      exact ih _ (List.get_mem _ _) (hfirst.2 i hi hiv) (hsecond.2 i hiv hi')
  | object _ _ ih =>
      obtain ⟨gs, rfl, hlength, hfirst⟩ := object_same_iff.1 huv
      obtain ⟨ks, rfl, hlength', hsecond⟩ := object_same_iff.1 hvw
      refine object_same_iff.2 ⟨ks, rfl, hlength.trans hlength', ?_⟩
      intro f hf
      obtain ⟨v, hv, hfv⟩ := hfirst f hf
      obtain ⟨w, hw, hsame⟩ := hsecond (f.1, v) (mem_of_lookup hv)
      exact ⟨w, hw, ih f hf hfv hsame⟩

/-- The fields of two objects that are the same have the same names. -/
theorem names_subset {fs gs : List (String × Value)}
    (hnames : (fs.map (·.1)).Nodup) (hlength : fs.length = gs.length)
    (hsame : ∀ f ∈ fs, ∃ w, lookup f.1 gs = some w ∧ f.2.same w = true) :
    gs.map (·.1) ⊆ fs.map (·.1) := by
  have hsub : fs.map (·.1) ⊆ gs.map (·.1) := by
    intro name hname
    obtain ⟨f, hf, rfl⟩ := List.mem_map.1 hname
    obtain ⟨w, hw, -⟩ := hsame f hf
    exact List.mem_map.2 ⟨_, mem_of_lookup hw, rfl⟩
  have hperm := (List.subperm_of_subset hnames hsub).perm_of_length_le
    (by simp [hlength])
  exact hperm.symm.subset

/-- Sameness is symmetric. For objects this needs counting: the names of the
one are among those of the other, and as there are as many of them and none
occurs twice, they are the same names. -/
theorem same_symm {v w : Value} (hv : v.WellFormed) (hw : w.WellFormed)
    (h : v.same w = true) : w.same v = true := by
  induction hv generalizing w with
  | scalar hscalar =>
      obtain ⟨key, hkey⟩ := isScalar_iff.1 hscalar
      exact (same_iff_key? ((same_iff_key? hkey).1 h)).2 hkey
  | array _ ih =>
      obtain ⟨ws, rfl, helements⟩ := array_same_iff.1 h
      have hws : ∀ w ∈ ws, w.WellFormed := by
        cases hw with
        | scalar hscalar => cases hscalar
        | array hall => exact hall
      refine array_same_iff.2 ⟨_, rfl, ?_⟩
      rw [List.forall₂_iff_get] at helements ⊢
      refine ⟨helements.1.symm, fun i hi hi' => ?_⟩
      exact ih _ (List.get_mem _ _) (hws _ (List.get_mem _ _))
        (helements.2 i hi' hi)
  | @object fs hnames _ ih =>
      obtain ⟨gs, rfl, hlength, hfields⟩ := object_same_iff.1 h
      obtain ⟨hnames', hgs⟩ : (gs.map (·.1)).Nodup
          ∧ ∀ g ∈ gs, g.2.WellFormed := by
        cases hw with
        | scalar hscalar => cases hscalar
        | object hnames' hall => exact ⟨hnames', hall⟩
      refine object_same_iff.2 ⟨fs, rfl, hlength.symm, fun g hg => ?_⟩
      -- a field on the right has a namesake on the left
      have hname : g.1 ∈ fs.map (·.1) :=
        names_subset hnames hlength hfields (List.mem_map.2 ⟨g, hg, rfl⟩)
      obtain ⟨f, hf, hfg⟩ := List.mem_map.1 hname
      obtain ⟨w, hw, hsame⟩ := hfields f hf
      rw [hfg, lookup_of_mem hnames' hg] at hw
      injection hw with hw
      subst hw
      refine ⟨f.2, ?_, ih f hf (hgs g hg) hsame⟩
      rw [← hfg]
      exact lookup_of_mem hnames hf

end WellFormed

end Value

-- ============================================================== leaves

namespace Leaf

/-- A variable that is named by a text, or a constant. -/
def isAtom : Leaf → Bool
  | .atom _ => true
  | _ => false

/-- A variable that is named by a text, or a constant that is short enough
to be written. -/
def isShortAtom : Leaf → Bool
  | .atom a => a.isShort
  | _ => false

/-- The name of a label is a well-formed value. -/
def WellFormed : Leaf → Prop
  | .label name => name.WellFormed
  | _ => True

variable {a b c : Leaf}

/-- Agreement of leaves is symmetric. -/
theorem beq_symm (ha : a.WellFormed) (hb : b.WellFormed)
    (h : (a == b) = true) : (b == a) = true := by
  cases a with
  | atom x =>
      cases b with
      | atom y =>
          have hxy : (x == y) = true := h
          have hyx : (y == x) = true := BEq.symm hxy
          exact hyx
      | _ => cases h
  | label name =>
      cases b with
      | label other => exact Value.WellFormed.same_symm ha hb h
      | _ => cases h
  | plain v => cases h

/-- Agreement of leaves is transitive: whatever agrees with something is no
plain value, and the names of variables agree as values do. -/
theorem beq_trans (ha : a.WellFormed) (hab : (a == b) = true)
    (hbc : (b == c) = true) : (a == c) = true := by
  cases a with
  | atom x =>
      cases b with
      | atom y =>
          cases c with
          | atom z =>
              have hxy : (x == y) = true := hab
              have hyz : (y == z) = true := hbc
              have hxz : (x == z) = true := BEq.trans hxy hyz
              exact hxz
          | _ => cases hbc
      | _ => cases hab
  | label name =>
      cases b with
      | label other =>
          cases c with
          | label third => exact Value.WellFormed.same_trans ha hab hbc
          | _ => cases hbc
      | _ => cases hab
  | plain v => cases hab

end Leaf

-- ============================================================ formulas

namespace Formula

/-- A test of all atoms, as a property and as a function. -/
theorem all_iff_allAtoms {α : Type} {p : α → Bool} {f : Formula α} :
    f.All (fun a => p a = true) ↔ f.allAtoms p = true := by
  induction f with
  | atom a => exact Iff.rfl
  | binary op left right ihl ihr =>
      rw [All, allAtoms, Bool.and_eq_true, ihl, ihr]

variable {f g k : Formula Leaf}

/-- Every label in the formula has a well-formed value for its name. -/
abbrev WellFormed (f : Formula Leaf) : Prop := f.All Leaf.WellFormed

theorem WellFormed.same_symm (hf : f.WellFormed) (hg : g.WellFormed)
    (h : f.same g = true) : g.same f = true :=
  same_symm_of (fun _ _ => Leaf.beq_symm) hf hg h

theorem WellFormed.same_trans (hf : f.WellFormed) (hg : g.WellFormed)
    (hk : k.WellFormed) (hfg : f.same g = true) (hgk : g.same k = true) :
    f.same k = true :=
  same_trans_of (fun _ _ _ ha _ _ => Leaf.beq_trans ha) hf hg hk hfg hgk

end Formula

end Deduction
