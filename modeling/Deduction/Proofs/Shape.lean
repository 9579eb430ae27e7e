/-
The formulas that can be written without brackets.

Read in order, a formula is an atom (`first`) and then pairs of an
operator and an atom (`pairs`). Many formulas read alike. `graft` picks
one of them: it lets `and` and `or` take the next atom only, and an arrow
everything that follows. The formulas so built are the shaped ones: the
right operand of `and` and `or` is an atom, and no left operand is an
implication.

So reading in order and grafting are inverse to each other, `pairs_graft`
one way for every list of pairs and `graft_pairs` the other way for every
shaped formula, and a shaped formula is known by how it reads
(`eq_of_pairs_eq`). In layers, a shaped formula is a right fold over
arrows of left folds over what stands between them
(`Clause.exists_implication_eq`).
-/
import Deduction.Formula

namespace Deduction.Formula

variable {α : Type}

-- ==================================================== reading in order

/-- The atom that a formula begins with. -/
def first : Formula α → α
  | .atom a => a
  | .binary _ left _ => left.first

/-- The operators and atoms that follow the first atom. -/
def pairs : Formula α → List (Connective × α)
  | .atom _ => []
  | .binary op left right => left.pairs ++ (op, right.first) :: right.pairs

/-- The formula built from a first operand and the pairs that follow it:
an arrow takes all the rest for its right operand, the other operators
take one atom each. -/
def graft (left : Formula α) : List (Connective × α) → Formula α
  | [] => left
  | (.imp, a) :: rest => .imp left (graft (.atom a) rest)
  | (op, a) :: rest => graft (.binary op left (.atom a)) rest

theorem graft_nil (left : Formula α) : left.graft [] = left := rfl

theorem graft_imp (left : Formula α) (a : α) (rest : List (Connective × α)) :
    left.graft ((.imp, a) :: rest) = .imp left ((atom a).graft rest) := rfl

/-- Every operator but the arrow takes one atom. -/
theorem graft_junction {op : Connective} (hop : op ≠ .imp)
    (left : Formula α) (a : α) (rest : List (Connective × α)) :
    left.graft ((op, a) :: rest) = (binary op left (.atom a)).graft rest := by
  cases op with
  | and => rfl
  | or => rfl
  | imp => exact absurd rfl hop

/-- Grafting keeps the first atom. -/
theorem first_graft (left : Formula α) (rest : List (Connective × α)) :
    (left.graft rest).first = left.first := by
  induction rest generalizing left with
  | nil => rfl
  | cons x rest ih =>
      obtain ⟨op, a⟩ := x
      by_cases hop : op = .imp
      · subst hop
        rfl
      · rw [graft_junction hop, ih]
        rfl

/-- Grafting adds the pairs it is given, in order. -/
theorem pairs_graft (left : Formula α) (rest : List (Connective × α)) :
    (left.graft rest).pairs = left.pairs ++ rest := by
  induction rest generalizing left with
  | nil => rw [graft_nil, List.append_nil]
  | cons x rest ih =>
      obtain ⟨op, a⟩ := x
      by_cases hop : op = .imp
      · subst hop
        rw [graft_imp, pairs, ih, first_graft]
        rfl
      · rw [graft_junction hop, ih, pairs, List.append_assoc]
        rfl

/-- Pairs without an arrow may be grafted before the rest. -/
theorem graft_append {rest : List (Connective × α)}
    (hrest : ∀ x ∈ rest, x.1 ≠ .imp) (left : Formula α)
    (more : List (Connective × α)) :
    left.graft (rest ++ more) = (left.graft rest).graft more := by
  induction rest generalizing left with
  | nil => rfl
  | cons x rest ih =>
      obtain ⟨op, a⟩ := x
      have hop : op ≠ .imp := hrest (op, a) List.mem_cons_self
      have htail : ∀ y ∈ rest, y.1 ≠ .imp := fun y hy =>
        hrest y (List.mem_cons_of_mem _ hy)
      rw [List.cons_append, graft_junction hop, graft_junction hop, ih htail]

-- =============================================================== shape

def isAtom : Formula α → Bool
  | .atom _ => true
  | .binary _ _ _ => false

def isImp : Formula α → Bool
  | .imp _ _ => true
  | _ => false

/-- Whether the formula can be written without brackets: at every
connective the left operand is no implication, and at every `and` and
`or` the right operand is an atom. -/
def isShaped : Formula α → Bool
  | .atom _ => true
  | .binary op left right =>
    !left.isImp && (op == .imp || right.isAtom)
      && left.isShaped && right.isShaped

theorem isShaped_atom (a : α) : (atom a).isShaped = true := rfl

/-- A connection is shaped if its operands are, the left one is no
implication, and the right one of `and` and `or` is an atom. -/
theorem isShaped_binary {op : Connective} {left right : Formula α} :
    (binary op left right).isShaped = true ↔
      left.isImp = false ∧ (op = .imp ∨ right.isAtom = true)
        ∧ left.isShaped = true ∧ right.isShaped = true := by
  rw [isShaped]
  simp only [Bool.and_eq_true, Bool.not_eq_true', Bool.or_eq_true,
    beq_iff_eq, and_assoc]

theorem isAtom_iff {f : Formula α} :
    f.isAtom = true ↔ ∃ a, f = .atom a := by
  cases f with
  | atom a => exact ⟨fun _ => ⟨a, rfl⟩, fun _ => rfl⟩
  | binary op left right =>
      constructor
      · intro h
        cases h
      · rintro ⟨a, h⟩
        cases h

theorem isImp_junction {op : Connective} (hop : op ≠ .imp)
    (left right : Formula α) : (binary op left right).isImp = false := by
  cases op with
  | and => rfl
  | or => rfl
  | imp => exact absurd rfl hop

/-- Grafting onto a shaped operand that is no implication gives a shaped
formula. -/
theorem isShaped_graft {left : Formula α} (himp : left.isImp = false)
    (hleft : left.isShaped = true) (rest : List (Connective × α)) :
    (left.graft rest).isShaped = true := by
  induction rest generalizing left with
  | nil => exact hleft
  | cons x rest ih =>
      obtain ⟨op, a⟩ := x
      by_cases hop : op = .imp
      · subst hop
        rw [graft_imp]
        exact isShaped_binary.2
          ⟨himp, Or.inl rfl, hleft, ih rfl (isShaped_atom a)⟩
      · rw [graft_junction hop]
        refine ih (isImp_junction hop _ _) ?_
        exact isShaped_binary.2
          ⟨himp, Or.inr rfl, hleft, isShaped_atom a⟩

/-- There is no arrow anywhere in the formula. -/
def ArrowFree (f : Formula α) : Prop := ∀ x ∈ f.pairs, x.1 ≠ .imp

theorem arrowFree_atom (a : α) : (atom a).ArrowFree := fun _ hx => nomatch hx

theorem arrowFree_binary {op : Connective} {left right : Formula α} :
    (binary op left right).ArrowFree ↔
      op ≠ .imp ∧ left.ArrowFree ∧ right.ArrowFree := by
  unfold ArrowFree
  rw [pairs, List.forall_mem_append, List.forall_mem_cons, and_left_comm]

/-- A shaped formula that is no implication has no arrow in it. -/
theorem arrowFree_of_not_isImp {f : Formula α} (hf : f.isShaped = true)
    (himp : f.isImp = false) : f.ArrowFree := by
  induction f with
  | atom a => exact arrowFree_atom a
  | binary op left right ihl ihr =>
      obtain ⟨hl, hright, hls, -⟩ := isShaped_binary.1 hf
      have hop : op ≠ .imp := by
        rintro rfl
        cases himp
      obtain ⟨a, rfl⟩ := isAtom_iff.1 (hright.resolve_left hop)
      exact arrowFree_binary.2 ⟨hop, ihl hls hl, arrowFree_atom a⟩

/-- A shaped formula is what is grafted from how it reads. -/
theorem graft_pairs {f : Formula α} (hf : f.isShaped = true) :
    (atom f.first).graft f.pairs = f := by
  induction f with
  | atom a => rfl
  | binary op left right ihl ihr =>
      obtain ⟨hl, hright, hls, hrs⟩ := isShaped_binary.1 hf
      -- no arrow on the left, so the left operand is grafted by itself
      rw [first, pairs, graft_append (arrowFree_of_not_isImp hls hl), ihl hls]
      by_cases hop : op = .imp
      · subst hop
        rw [graft_imp, ihr hrs]
      · obtain ⟨a, rfl⟩ := isAtom_iff.1 (hright.resolve_left hop)
        rw [graft_junction hop]
        rfl

/-- Shaped formulas that read alike are equal. -/
theorem eq_of_pairs_eq {f g : Formula α} (hf : f.isShaped = true)
    (hg : g.isShaped = true) (hfirst : f.first = g.first)
    (hpairs : f.pairs = g.pairs) : f = g := by
  rw [← graft_pairs hf, ← graft_pairs hg, hfirst, hpairs]

end Deduction.Formula

namespace Deduction

-- ============================================================= clauses

/-- What stands between two arrows: an atom and pairs without an arrow. -/
structure Clause (α : Type) where
  first : α
  rest : List (Connective × α)
  noArrow : ∀ x ∈ rest, x.1 ≠ .imp

namespace Clause

variable {α : Type}

/-- The left fold over a clause. -/
def formula (c : Clause α) : Formula α :=
  c.rest.foldl (fun f x => .binary x.1 f (.atom x.2)) (.atom c.first)

/-- Grafting a clause is folding it. -/
theorem graft_rest (c : Clause α) :
    (Formula.atom c.first).graft c.rest = c.formula := by
  unfold formula
  suffices key : ∀ (rest : List (Connective × α)) (left : Formula α),
      (∀ x ∈ rest, x.1 ≠ .imp) →
      left.graft rest
        = rest.foldl (fun f x => .binary x.1 f (.atom x.2)) left from
    key c.rest _ c.noArrow
  intro rest
  induction rest with
  | nil => intro left _; rfl
  | cons x rest ih =>
      intro left hrest
      obtain ⟨op, a⟩ := x
      rw [Formula.graft_junction (hrest (op, a) List.mem_cons_self),
        List.foldl_cons]
      exact ih _ fun y hy => hrest y (List.mem_cons_of_mem _ hy)

/-- A shaped formula that is no implication is a clause. -/
theorem exists_formula_eq {f : Formula α} (hf : f.isShaped = true)
    (himp : f.isImp = false) : ∃ c : Clause α, c.formula = f := by
  refine ⟨⟨f.first, f.pairs, Formula.arrowFree_of_not_isImp hf himp⟩, ?_⟩
  rw [← graft_rest]
  exact Formula.graft_pairs hf

/-- The right fold over arrows: some clauses imply a last one. -/
def implication (premises : List (Clause α)) (conclusion : Clause α) :
    Formula α :=
  premises.foldr (fun c f => .imp c.formula f) conclusion.formula

/-- Every shaped formula is an implication between clauses. -/
theorem exists_implication_eq {f : Formula α} (hf : f.isShaped = true) :
    ∃ premises conclusion, implication premises conclusion = f := by
  induction f with
  | atom a =>
      obtain ⟨c, hc⟩ := exists_formula_eq hf rfl
      exact ⟨[], c, hc⟩
  | binary op left right ihl ihr =>
      by_cases hop : op = .imp
      · subst hop
        obtain ⟨hl, -, hls, hrs⟩ := Formula.isShaped_binary.1 hf
        obtain ⟨c, hc⟩ := exists_formula_eq hls hl
        obtain ⟨premises, conclusion, hright⟩ := ihr hrs
        refine ⟨c :: premises, conclusion, ?_⟩
        rw [← hc, ← hright]
        rfl
      · obtain ⟨c, hc⟩ := exists_formula_eq hf (Formula.isImp_junction hop _ _)
        exact ⟨[], c, hc⟩

end Clause

end Deduction
