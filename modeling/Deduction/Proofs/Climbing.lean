/-
Climbing, taken apart.

`climb` calls itself for the right operand of each operator and again for
what follows, and carries bounds on the cursor along. None of this is
needed to say what it does. `readPairs` walks once over the tokens and
collects pairs of an operator and an atom, as long as the operators are
strong enough; `graft` builds the formula from the pairs. `climb_eq`
says that climbing is the one after the other, at every power and with
the same errors.

Why it holds: an operand to the right of `and` or `or` is read at a power
above all operators, so it is the atom alone. One to the right of an
arrow is read at a power below all of them, so it takes all the pairs
that are left, and nothing is left for the loop to go on with.

A whole parse is then an atom and pairs up to the end of the tokens
(`parse_eq_ok_iff`).
-/
import Deduction.Formula.Climb
import Deduction.Proofs.Shape

namespace Deduction.Formula

variable {α : Type} (reader : AtomReader α)

-- ====================================================== climbing, bare

/-- A result without the bound on its cursor. -/
def unbounded {P : Cursor → Prop} :
    Except ReadError (Formula α × { d : Cursor // P d }) →
      Except ReadError (Formula α × Cursor)
  | .error e => .error e
  | .ok (f, d) => .ok (f, d.1)

/-- The operators that hold on to their left operand with some power. -/
def fits (power : Int) (op : Connective) : Bool :=
  decide (power ≤ op.leftPower)

theorem fits_iff {power : Int} {op : Connective} :
    fits power op = true ↔ power ≤ op.leftPower := by
  unfold fits
  rw [decide_eq_true_iff]

/-- The operator that a token stands for, if it is strong enough. -/
def operator? (strong : Connective → Bool) (t : Token) :
    Option Connective :=
  t.kind.connective?.filter strong

theorem climb_nil (power : Int) (left : Formula α) (p : Nat) :
    unbounded (climb reader power left ⟨p, []⟩) = .ok (left, ⟨p, []⟩) := by
  rw [climb]
  rfl

/-- Climbing stops at a token that is no operator, or too weak a one. -/
theorem climb_stop {power : Int} {t : Token}
    (h : operator? (fits power) t = none) (left : Formula α) (p : Nat)
    (ts : List Token) :
    unbounded (climb reader power left ⟨p, t :: ts⟩)
      = .ok (left, ⟨p, t :: ts⟩) := by
  rw [climb]
  unfold operator? at h
  cases hop : t.kind.connective? with
  | none => rfl
  | some op =>
      rw [hop, Option.filter_some] at h
      have hweak : op.leftPower < power := by
        by_cases hfits : fits power op = true
        · rw [if_pos hfits] at h
          cases h
        · exact Int.not_le.1 fun hle => hfits (fits_iff.2 hle)
      dsimp only
      rw [if_pos hweak]
      rfl

/-- Climbing past an operator: read its right operand at its right power,
then go on with the two joined. -/
theorem climb_operator {power : Int} {t : Token} {op : Connective}
    (h : operator? (fits power) t = some op) (left : Formula α) (p : Nat)
    (ts : List Token) :
    unbounded (climb reader power left ⟨p, t :: ts⟩)
      = match operand reader ⟨p + 1, ts⟩ with
        | .error e => .error e
        | .ok (a, ⟨c, _⟩) =>
          match unbounded (climb reader op.rightPower (.atom a) c) with
          | .error e => .error e
          | .ok (right, d) =>
            unbounded (climb reader power (.binary op left right) d) := by
  rw [climb]
  unfold operator? at h
  obtain ⟨hop, hfits⟩ := Option.filter_eq_some_iff.1 h
  have hstrong : ¬ op.leftPower < power := Int.not_lt.2 (fits_iff.1 hfits)
  rw [hop]
  dsimp only
  rw [if_neg hstrong]
  cases operand reader ⟨p + 1, ts⟩ with
  | error e => rfl
  | ok result =>
      obtain ⟨a, c, hc⟩ := result
      dsimp only
      cases climb reader op.rightPower (.atom a) c with
      | error e => rfl
      | ok result =>
          obtain ⟨right, d, hd⟩ := result
          dsimp only [unbounded]
          cases climb reader power (.binary op left right) d with
          | error e => rfl
          | ok result => rfl

-- =========================================================== the walk

/-- Reads pairs of an operator and an atom, as long as the operators are
strong enough. -/
def readPairs (strong : Connective → Bool) : Nat → List Token →
    Except ReadError (List (Connective × α) × Cursor)
  | p, [] => .ok ([], ⟨p, []⟩)
  | p, t :: ts =>
    match operator? strong t with
    | none => .ok ([], ⟨p, t :: ts⟩)
    | some op =>
      match ts with
      | [] => .error (.endOfInput (p + 1))
      | u :: us =>
        match reader u with
        | none => .error (.naming u (.unexpected u (p + 1)))
        | some (.error cause) => .error (.atom cause (p + 1))
        | some (.ok a) =>
          match readPairs strong (p + 2) us with
          | .error e => .error e
          | .ok (xs, c) => .ok ((op, a) :: xs, c)

theorem readPairs_stop {strong : Connective → Bool} {t : Token}
    (h : operator? strong t = none) (p : Nat) (ts : List Token) :
    readPairs reader strong p (t :: ts) = .ok ([], ⟨p, t :: ts⟩) := by
  simp only [readPairs, h]

theorem readPairs_end {strong : Connective → Bool} {t : Token}
    {op : Connective} (h : operator? strong t = some op) (p : Nat) :
    readPairs reader strong p [t] = .error (.endOfInput (p + 1)) := by
  simp only [readPairs, h]

/-- Behind an operator that is strong enough, reading goes on if there is an
operand, and with the pairs behind that. -/
theorem readPairs_operator {strong : Connective → Bool} {t u : Token}
    {op : Connective} (h : operator? strong t = some op) (p : Nat)
    (us : List Token) :
    readPairs reader strong p (t :: u :: us)
      = match reader u with
        | none => .error (.naming u (.unexpected u (p + 1)))
        | some (.error cause) => .error (.atom cause (p + 1))
        | some (.ok a) =>
          match readPairs reader strong (p + 2) us with
          | .error e => .error e
          | .ok (xs, c) => .ok ((op, a) :: xs, c) := by
  simp only [readPairs, h]

/-- What the walk leaves is the end of what it was given. -/
theorem suffix_of_readPairs {strong : Connective → Bool} {p : Nat}
    {ts : List Token} {xs : List (Connective × α)} {c : Cursor}
    (h : readPairs reader strong p ts = .ok (xs, c)) : c.rest <:+ ts := by
  fun_induction readPairs reader strong p ts generalizing xs c with
  | case1 p =>
      cases h
      exact List.suffix_refl _
  | case2 p t ts hstop =>
      cases h
      exact List.suffix_refl _
  | case3 => cases h
  | case4 => cases h
  | case5 => cases h
  | case6 => cases h
  | case7 p t op hop u us a hread xs' c' hwalk ih =>
      cases h
      have hrest := ih hwalk
      exact (hrest.trans (List.suffix_cons u us)).trans (List.suffix_cons t _)

/-- A walk ends where no operator that is strong enough follows. -/
theorem operator?_of_readPairs {strong : Connective → Bool} {p : Nat}
    {ts rest : List Token} {xs : List (Connective × α)} {c : Cursor}
    {t : Token} (h : readPairs reader strong p ts = .ok (xs, c))
    (hrest : c.rest = t :: rest) : operator? strong t = none := by
  fun_induction readPairs reader strong p ts generalizing xs c with
  | case1 p =>
      injection h with h
      injection h with _ hc
      subst hc
      cases hrest
  | case2 p u ts hstop =>
      injection h with h
      injection h with _ hc
      subst hc
      injection hrest with hu _
      rw [← hu]
      exact hstop
  | case7 p u op hop w us a hread ys d hwalk ih =>
      injection h with h
      injection h with _ hc
      subst hc
      exact ih hwalk hrest
  | case3 => cases h
  | case4 => cases h
  | case5 => cases h
  | case6 => cases h

/-- The formula grafted from a walk. -/
def graftWalk (left : Formula α) :
    Except ReadError (List (Connective × α) × Cursor) →
      Except ReadError (Formula α × Cursor)
  | .error e => .error e
  | .ok (xs, c) => .ok (left.graft xs, c)

-- ================================================== the two are the same

/-- Nothing is strong enough above all powers. -/
theorem operator?_above {power : Int} (h : 10 < power) (t : Token) :
    operator? (fits power) t = none := by
  have hweak : ∀ op : Connective, fits power op = false := by
    intro op
    rw [Bool.eq_false_iff, Ne, fits_iff]
    cases op <;> simp only [Connective.leftPower] <;> omega
  unfold operator?
  cases t.kind.connective? with
  | none => rfl
  | some op => simp [Option.filter_some, hweak op]

/-- Nothing is climbed there. It is where `and` and `or` read their right
operand, which is one atom and no more. -/
theorem climb_above {power : Int} (h : 10 < power) (left : Formula α)
    (c : Cursor) : unbounded (climb reader power left c) = .ok (left, c) := by
  obtain ⟨p, ts⟩ := c
  cases ts with
  | nil => exact climb_nil reader power left p
  | cons t ts => exact climb_stop reader (operator?_above h t) left p ts

/-- Where an arrow is strong enough, every operator is, and so they are
to its right. -/
theorem fits_of_arrow {power : Int} (h : fits power .imp = true) :
    fits power = fits Connective.imp.rightPower := by
  funext op
  have hweakest : Connective.imp.leftPower ≤ op.leftPower := by
    cases op <;> decide
  have hright : Connective.imp.rightPower ≤ op.leftPower := by
    cases op <;> decide
  rw [fits_iff.2 (Int.le_trans (fits_iff.1 h) hweakest), fits_iff.2 hright]

/-- Behind a walk there is nothing left to climb. -/
theorem climb_of_readPairs {power : Int} {p : Nat} {ts : List Token}
    {xs : List (Connective × α)} {c : Cursor}
    (h : readPairs reader (fits power) p ts = .ok (xs, c))
    (left : Formula α) :
    unbounded (climb reader power left c) = .ok (left, c) := by
  obtain ⟨q, rest⟩ := c
  cases rest with
  | nil => exact climb_nil reader power left q
  | cons t rest =>
      exact climb_stop reader (operator?_of_readPairs reader h rfl) left q rest

/-- Climbing past one pair, if climbing further on is walking: what the
operator's right operand takes and what is left to the loop together are
the rest of the walk. -/
theorem climb_pair {power : Int} {op : Connective} {a : α} {p : Nat}
    {us : List Token} (hop : fits power op = true)
    (ih : ∀ (power : Int) (left : Formula α),
      unbounded (climb reader power left ⟨p, us⟩)
        = graftWalk left (readPairs reader (fits power) p us))
    (left : Formula α) :
    (match unbounded (climb reader op.rightPower (.atom a) ⟨p, us⟩) with
      | .error e => .error e
      | .ok (right, d) =>
        unbounded (climb reader power (.binary op left right) d))
      = graftWalk left
          (match readPairs reader (fits power) p us with
            | .error e => .error e
            | .ok (xs, c) => .ok ((op, a) :: xs, c)) := by
  by_cases himp : op = .imp
  · -- the right operand takes the whole walk and the loop stops behind it
    subst himp
    rw [ih, ← fits_of_arrow hop]
    cases hwalk : readPairs reader (fits power) p us with
    | error e => rfl
    | ok result =>
        obtain ⟨xs, c⟩ := result
        exact climb_of_readPairs reader hwalk _
  · -- the right operand is the atom and the loop takes the whole walk
    have hright : op.rightPower = 11 := by
      cases op with
      | and => rfl
      | or => rfl
      | imp => exact absurd rfl himp
    rw [hright, climb_above reader (by decide)]
    dsimp only
    rw [ih]
    cases readPairs reader (fits power) p us with
    | error e => rfl
    | ok result =>
        obtain ⟨xs, c⟩ := result
        dsimp only [graftWalk]
        rw [graft_junction himp]

/-- Climbing is walking over the pairs and grafting them. -/
theorem climb_eq (power : Int) (left : Formula α) (p : Nat)
    (ts : List Token) :
    unbounded (climb reader power left ⟨p, ts⟩)
      = graftWalk left (readPairs reader (fits power) p ts) := by
  -- by the number of tokens: both recursive calls read behind two of them
  suffices key : ∀ (n : Nat) (ts : List Token), ts.length ≤ n →
      ∀ (power : Int) (left : Formula α) (p : Nat),
        unbounded (climb reader power left ⟨p, ts⟩)
          = graftWalk left (readPairs reader (fits power) p ts) from
    key ts.length ts (Nat.le_refl _) power left p
  intro n
  induction n with
  | zero =>
      intro ts hn power left p
      rw [List.length_eq_zero_iff.1 (Nat.le_zero.1 hn)]
      exact climb_nil reader power left p
  | succ n ih =>
      intro ts hn power left p
      match ts with
      | [] => exact climb_nil reader power left p
      | t :: ts =>
          cases hop : operator? (fits power) t with
          | none =>
              rw [climb_stop reader hop, readPairs_stop reader hop]
              rfl
          | some op =>
              rw [climb_operator reader hop]
              match ts with
              | [] => rw [readPairs_end reader hop]; rfl
              | u :: us =>
                  have hus : us.length ≤ n := by
                    simp only [List.length_cons] at hn
                    omega
                  rw [readPairs_operator reader hop]
                  match hread : reader u with
                  | none => simp only [operand, hread]; rfl
                  | some (.error cause) => simp only [operand, hread]; rfl
                  | some (.ok a) =>
                      simp only [operand, hread]
                      exact climb_pair reader
                        (Option.filter_eq_some_iff.1 hop).2
                        (fun power left => ih us hus power left _) left

-- ========================================================= whole parses

/-- Tokens that read as pairs of an operator and an atom. -/
inductive ReadAs : List Token → List (Connective × α) → Prop where
  | nil : ReadAs [] []
  | cons {t u : Token} {ts : List Token} {op : Connective} {a : α}
      {xs : List (Connective × α)} :
      t.kind.connective? = some op → reader u = some (.ok a) →
      ReadAs ts xs → ReadAs (t :: u :: ts) ((op, a) :: xs)

/-- At power zero all operators are strong enough. -/
theorem operator?_zero (t : Token) :
    operator? (fits 0) t = t.kind.connective? := by
  unfold operator?
  cases t.kind.connective? with
  | none => rfl
  | some op => cases op <;> rfl

/-- A walk to the end of the tokens reads all of them. -/
theorem readPairs_zero_iff {p : Nat} {ts : List Token}
    {xs : List (Connective × α)} :
    (∃ q, readPairs reader (fits 0) p ts = .ok (xs, ⟨q, []⟩))
      ↔ ReadAs reader ts xs := by
  constructor
  · rintro ⟨q, h⟩
    fun_induction readPairs reader (fits 0) p ts generalizing xs with
    | case1 p =>
        injection h with h
        injection h with hxs _
        subst hxs
        exact .nil
    | case2 p u ts hstop => cases h
    | case3 => cases h
    | case4 => cases h
    | case5 => cases h
    | case6 => cases h
    | case7 p t op hop u us a hread ys c hwalk ih =>
        injection h with h
        injection h with hxs hc
        subst hxs hc
        rw [operator?_zero] at hop
        exact .cons hop hread (ih hwalk)
  · intro h
    induction h generalizing p with
    | nil => exact ⟨p, rfl⟩
    | @cons t u ts op a xs hop hread _ ih =>
        obtain ⟨q, hq⟩ := ih (p := p + 2)
        refine ⟨q, ?_⟩
        rw [readPairs_operator reader ((operator?_zero t).trans hop), hread]
        dsimp only
        rw [hq]

/-- An expression is its first atom, onto which the pairs behind it are
grafted. -/
theorem expression_cons {t : Token} {a : α}
    (hread : reader t = some (.ok a)) (power : Int) (p : Nat)
    (ts : List Token) :
    expression reader power ⟨p, t :: ts⟩
      = graftWalk (.atom a) (readPairs reader (fits power) (p + 1) ts) := by
  rw [← climb_eq]
  simp only [expression, operand, hread]
  cases climb reader power (.atom a) ⟨p + 1, ts⟩ with
  | error e => rfl
  | ok result => rfl

/-- An expression begins with a token that is read as an atom. -/
theorem atom_of_expression {power : Int} {c : Cursor}
    {result : Formula α × Cursor}
    (h : expression reader power c = .ok result) :
    ∃ t ts a, c.rest = t :: ts ∧ reader t = some (.ok a) := by
  obtain ⟨p, tokens⟩ := c
  cases tokens with
  | nil => simp only [expression, operand] at h; cases h
  | cons t ts =>
      cases hread : reader t with
      | none => simp only [expression, operand, hread] at h; cases h
      | some read =>
          cases read with
          | error cause =>
              simp only [expression, operand, hread] at h
              cases h
          | ok a => exact ⟨t, ts, a, rfl, hread⟩

/-- A list of tokens is read as a formula if it is an atom and pairs, and
the formula is what is grafted from them. -/
theorem parse_eq_ok_iff {tokens : List Token} {f : Formula α} :
    parse reader tokens = .ok f ↔
      ∃ t ts a xs, tokens = t :: ts ∧ reader t = some (.ok a)
        ∧ ReadAs reader ts xs ∧ f = (atom a).graft xs := by
  constructor
  · intro h
    unfold parse at h
    cases hexp : expression reader 0 (.start tokens) with
    | error e => rw [hexp] at h; cases h
    | ok result =>
        obtain ⟨t, ts, a, htokens, hread⟩ := atom_of_expression reader hexp
        have htokens : tokens = t :: ts := htokens
        subst htokens
        rw [hexp] at h
        unfold Cursor.start at hexp
        rw [expression_cons reader hread] at hexp
        cases hwalk : readPairs reader (fits 0) (0 + 1) ts with
        | error e => rw [hwalk] at hexp; cases hexp
        | ok walk =>
            obtain ⟨xs, q, rest⟩ := walk
            rw [hwalk] at hexp
            injection hexp with hexp
            subst hexp
            cases rest with
            | cons u rest => cases h
            | nil =>
                injection h with h
                exact ⟨t, ts, a, xs, rfl, hread,
                  (readPairs_zero_iff reader).1 ⟨q, hwalk⟩, h.symm⟩
  · rintro ⟨t, ts, a, xs, rfl, hread, hpairs, rfl⟩
    obtain ⟨q, hwalk⟩ := (readPairs_zero_iff reader (p := 0 + 1)).2 hpairs
    unfold parse Cursor.start
    rw [expression_cons reader hread, hwalk]
    rfl

end Deduction.Formula
