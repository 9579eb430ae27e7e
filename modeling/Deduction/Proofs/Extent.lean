/-
How far climbing goes.

Climbing from a place takes pairs of an operator and an operand as long
as the operators hold on strongly enough. Said by places only, that is a
run (`Token.Run`): it goes from one place to another in steps of two, and
where it cannot go on it is the longest there is (`Run.isGreatest`). What
climbing comes to is then settled by the operator at the end of the
longest run. If there is none that is strong enough, climbing stops there;
if there is one it has no operand, and climbing fails behind it.

The powers of the operators are 10 and 5. So up to 5 every operator is
taken, up to 10 all but arrows, and above that none (`Extent`).

Climbing also ends, and soon: each operand that is entered and each turn of
the loop has two tokens fewer before it. `climbWithin` gives up after so
many of them in a row, and one more than half the tokens is always enough
(`climbWithin_eq`).
-/
import Deduction.Formula.Leaf
import Deduction.Proofs.Viability

namespace Deduction

-- ================================================================ powers

theorem Connective.le_leftPower {power : Int} (h : power ≤ 5)
    (op : Connective) : power ≤ op.leftPower := by
  cases op <;> simp only [leftPower] <;> omega

/-- Between the two powers arrows are too weak and the others are not. -/
theorem Connective.le_leftPower_iff {power : Int} {op : Connective}
    (habove : 5 < power) (h : power ≤ 10) :
    power ≤ op.leftPower ↔ op ≠ .imp := by
  cases op <;> simp [leftPower] <;> omega

namespace Token

variable {tokens ts : List Token} {t : Token} {sort : Connective → Prop}
  {p q : Nat}

-- ================================================================ places

/-- An operator of some sort stands at a place. -/
def OperatorAt (sort : Connective → Prop) (tokens : List Token) (i : Nat) :
    Prop :=
  ∃ t op, tokens[i]? = some t ∧ t.kind.connective? = some op ∧ sort op

/-- An operand stands at a place. -/
def OperandAt (tokens : List Token) (i : Nat) : Prop :=
  ∃ t, tokens[i]? = some t ∧ t.isOperand = true

/-- An operator of some sort stands at a place, and an operand behind
it. -/
def PairAt (sort : Connective → Prop) (tokens : List Token) (i : Nat) :
    Prop :=
  OperatorAt sort tokens i ∧ OperandAt tokens (i + 1)

/-- What is wrong with a place that has no operand: the tokens end there,
or the one that stands there is unexpected, and named if it can be. -/
def operandError (tokens : List Token) (i : Nat) : ReadError :=
  match tokens[i]? with
  | none => .endOfInput i
  | some t => .naming t (.unexpected t i)

theorem getElem?_of_drop (h : tokens.drop p = t :: ts) :
    tokens[p]? = some t := by
  rw [← List.head?_drop, h]
  rfl

theorem drop_of_drop (h : tokens.drop p = t :: ts) :
    tokens.drop (p + 1) = ts := by
  rw [← List.tail_drop, h]
  rfl

-- ================================================================== runs

/-- From one place to another there are pairs of an operator of some sort
and an operand, and nothing else. -/
inductive Run (sort : Connective → Prop) (tokens : List Token) :
    Nat → Nat → Prop where
  | nil (p : Nat) : Run sort tokens p p
  | pair {p q : Nat} :
      PairAt sort tokens p → Run sort tokens (p + 2) q → Run sort tokens p q

/-- A run ends behind its start. -/
theorem Run.le (h : Run sort tokens p q) : p ≤ q := by
  induction h with
  | nil p => exact Nat.le_refl p
  | pair _ _ ih => omega

/-- A run that cannot go on is the longest one. -/
theorem Run.isGreatest (h : Run sort tokens p q)
    (hstop : ¬ PairAt sort tokens q) :
    IsGreatest {r | Run sort tokens p r} q := by
  refine ⟨h, ?_⟩
  intro r hr
  induction h with
  | nil p =>
      cases hr with
      | nil => exact Nat.le_refl _
      | pair hpair _ => exact absurd hpair hstop
  | pair _ hrest ih =>
      cases hr with
      | nil => exact Nat.le_trans (Nat.le_add_right _ 2) hrest.le
      | pair _ hr => exact ih hstop hr

end Token

-- =============================================================== readers

/-- The reader takes a token for an atom if it is an operand, and for
nothing otherwise. -/
structure AtomReader.Reads {α : Type} (reader : AtomReader α) (t : Token) :
    Prop where
  refuses : reader t = none ↔ t.isOperand = false
  accepts : ∀ cause, reader t ≠ some (.error cause)

/-- What is read as an atom is an operand. -/
theorem AtomReader.Reads.isOperand {α : Type} {reader : AtomReader α}
    {t : Token} {a : α} (h : reader.Reads t)
    (hread : reader t = some (.ok a)) : t.isOperand = true := by
  by_contra hnot
  rw [h.refuses.2 (Bool.eq_false_iff.2 hnot)] at hread
  cases hread

theorem Atom.reads_of_isLoaded {t : Token} (h : t.isLoaded = true) :
    AtomReader.Reads Atom.ofToken t :=
  ⟨Token.ofToken_eq_none_iff, Formula.ofToken_ne_error h⟩

/-- Loaded tokens are read as leaves in the way they are read as atoms. -/
theorem Leaf.ofToken_of_isLoaded {t : Token} (h : t.isLoaded = true) :
    Leaf.ofToken t = (Atom.ofToken t).map (Except.map .atom) := by
  unfold Token.isLoaded at h
  split at h
  next => rfl
  next => rfl
  next =>
    have hkind : t.kind ≠ .identifier := by
      intro hkind
      unfold Token.isOperand at h
      rw [hkind] at h
      cases h
    unfold Leaf.ofToken
    split
    next hid _ => exact absurd hid hkind
    next hid _ => exact absurd hid hkind
    next hid _ => exact absurd hid hkind
    next => rfl

/-- So loaded tokens are read as leaves just if they are operands. -/
theorem Leaf.reads_of_isLoaded {t : Token} (h : t.isLoaded = true) :
    AtomReader.Reads Leaf.ofToken t := by
  have hatom := Atom.reads_of_isLoaded h
  constructor
  · rw [Leaf.ofToken_of_isLoaded h, Option.map_eq_none_iff]
    exact hatom.refuses
  · intro cause hread
    rw [Leaf.ofToken_of_isLoaded h, Option.map_eq_some_iff] at hread
    obtain ⟨read, hread, herror⟩ := hread
    cases read with
    | ok a => cases herror
    | error cause' => exact hatom.accepts cause' hread

namespace Formula

open Token

variable {α : Type} {reader : AtomReader α} {strong : Connective → Bool}
  {tokens ts : List Token} {xs : List (Connective × α)} {p q : Nat}
  {c d : Cursor} {e : ReadError}

-- ============================================================== the walk

theorem within_of_drop (h : tokens.drop p = ts) :
    Cursor.within tokens p = ⟨p, ts⟩ := by
  unfold Cursor.within
  rw [h]

/-- An operator that is strong enough stands where its token does. -/
theorem operatorAt_of_operator? {t : Token} {op : Connective}
    (ht : tokens[p]? = some t) (hop : operator? strong t = some op) :
    OperatorAt (strong · = true) tokens p := by
  obtain ⟨hkind, hstrong⟩ := Option.filter_eq_some_iff.1 hop
  exact ⟨t, op, ht, hkind, hstrong⟩

/-- So does a pair, with an operand behind it. -/
theorem pairAt_of_drop {t u : Token} {us : List Token} {op : Connective}
    {a : α} (hreads : ∀ t ∈ tokens, reader.Reads t)
    (hts : tokens.drop p = t :: u :: us)
    (hop : operator? strong t = some op) (hread : reader u = some (.ok a)) :
    PairAt (strong · = true) tokens p := by
  have hu := getElem?_of_drop (drop_of_drop hts)
  refine ⟨operatorAt_of_operator? (getElem?_of_drop hts) hop, u, hu, ?_⟩
  exact (hreads u (List.mem_of_getElem? hu)).isOperand hread

/-- A walk that stops has gone over a run, and reads it as its pairs. -/
theorem run_of_readPairs (hreads : ∀ t ∈ tokens, reader.Reads t)
    (hts : tokens.drop p = ts)
    (h : readPairs reader strong p ts = .ok (xs, c)) :
    c = .within tokens (p + 2 * xs.length)
      ∧ Run (strong · = true) tokens p (p + 2 * xs.length)
      ∧ ReadAs reader (ts.take (2 * xs.length)) xs := by
  -- by the walk, and `hts` says what it still has before it at each place
  fun_induction readPairs reader strong p ts generalizing xs c with
  | case1 p =>
      cases h
      exact ⟨(within_of_drop hts).symm, .nil p, .nil⟩
  | case2 p t ts hstop =>
      cases h
      exact ⟨(within_of_drop hts).symm, .nil p, .nil⟩
  | case7 p t op hop u us a hread ys d hwalk ih =>
      cases h
      obtain ⟨hcursor, hrun, hpairs⟩ :=
        ih (drop_of_drop (drop_of_drop hts)) hwalk
      have hplace : p + 2 * ((op, a) :: ys).length = p + 2 + 2 * ys.length := by
        rw [List.length_cons]
        omega
      have hpair := pairAt_of_drop hreads hts hop hread
      refine ⟨hplace ▸ hcursor, hplace ▸ .pair hpair hrun, ?_⟩
      rw [List.length_cons, Nat.mul_add]
      exact .cons (Option.filter_eq_some_iff.1 hop).1 hread hpairs
  | case3 => cases h
  | case4 => cases h
  | case5 => cases h
  | case6 => cases h

/-- A walk fails behind a run, at an operator without an operand. -/
theorem run_of_readPairs_error (hreads : ∀ t ∈ tokens, reader.Reads t)
    (hts : tokens.drop p = ts)
    (h : readPairs reader strong p ts = .error e) :
    ∃ q, Run (strong · = true) tokens p q
      ∧ OperatorAt (strong · = true) tokens q
      ∧ ¬ OperandAt tokens (q + 1) ∧ e = operandError tokens (q + 1) := by
  fun_induction readPairs reader strong p ts generalizing e with
  | case3 p t op hop =>
      cases h
      have hend : tokens[p + 1]? = none := by
        rw [← List.head?_drop, drop_of_drop hts]
        rfl
      refine ⟨p, .nil p, operatorAt_of_operator? (getElem?_of_drop hts) hop,
        ?_, ?_⟩
      · rintro ⟨u, hu, -⟩
        rw [hend] at hu
        cases hu
      · unfold operandError
        rw [hend]
  | case4 p t op hop u us hread =>
      cases h
      have hu := getElem?_of_drop (drop_of_drop hts)
      have hrefused : u.isOperand = false :=
        (hreads u (List.mem_of_getElem? hu)).refuses.1 hread
      refine ⟨p, .nil p, operatorAt_of_operator? (getElem?_of_drop hts) hop,
        ?_, ?_⟩
      · rintro ⟨w, hw, hoperand⟩
        rw [hu] at hw
        cases hw
        rw [hrefused] at hoperand
        cases hoperand
      · unfold operandError
        rw [hu]
  | case5 p t op hop u us cause hread =>
      have hu := getElem?_of_drop (drop_of_drop hts)
      exact absurd hread ((hreads u (List.mem_of_getElem? hu)).accepts cause)
  | case6 p t op hop u us a hread e' hwalk ih =>
      cases h
      obtain ⟨q, hrun, hrest⟩ := ih (drop_of_drop (drop_of_drop hts)) hwalk
      exact ⟨q, .pair (pairAt_of_drop hreads hts hop hread) hrun, hrest⟩
  | case1 => cases h
  | case2 => cases h
  | case7 => cases h

-- ============================================================== climbing

/-- What climbing comes to from a place among tokens. -/
def climbFrom (reader : AtomReader α) (power : Int) (left : Formula α)
    (tokens : List Token) (p : Nat) :
    Except ReadError (Formula α × Cursor) :=
  unbounded (climb reader power left (.within tokens p))

variable {power : Int} {left f : Formula α}

/-- Climbing from a place grafts the pairs that are read there. -/
theorem climbFrom_eq :
    climbFrom reader power left tokens p
      = graftWalk left (readPairs reader (fits power) p (tokens.drop p)) :=
  climb_eq reader power left p (tokens.drop p)

/-- Climbing stops behind a run, where no operator is strong enough. -/
theorem run_of_climbFrom (hreads : ∀ t ∈ tokens, reader.Reads t)
    (h : climbFrom reader power left tokens p = .ok (f, c)) :
    ∃ xs, c = .within tokens (p + 2 * xs.length)
      ∧ Run (power ≤ ·.leftPower) tokens p (p + 2 * xs.length)
      ∧ ReadAs reader ((tokens.drop p).take (2 * xs.length)) xs
      ∧ ¬ OperatorAt (power ≤ ·.leftPower) tokens (p + 2 * xs.length)
      ∧ f = left.graft xs := by
  rw [climbFrom_eq] at h
  cases hwalk : readPairs reader (fits power) p (tokens.drop p) with
  | error e => rw [hwalk] at h; cases h
  | ok walk =>
      obtain ⟨xs, d⟩ := walk
      rw [hwalk] at h
      cases h
      obtain ⟨rfl, hrun, hpairs⟩ := run_of_readPairs hreads rfl hwalk
      simp only [fits_iff] at hrun
      refine ⟨xs, rfl, hrun, hpairs, ?_, rfl⟩
      rintro ⟨t, op, ht, hop, hfits⟩
      -- the walk would have gone on with this operator
      rw [← List.head?_drop, List.head?_eq_some_iff] at ht
      obtain ⟨rest, hrest⟩ := ht
      have hstop := operator?_of_readPairs reader hwalk hrest
      unfold operator? at hstop
      rw [hop, Option.filter_some, if_pos (fits_iff.2 hfits)] at hstop
      cases hstop

/-- Climbing fails behind a run, at an operator that is strong enough and
has no operand. -/
theorem run_of_climbFrom_error (hreads : ∀ t ∈ tokens, reader.Reads t)
    (h : climbFrom reader power left tokens p = .error e) :
    ∃ q, Run (power ≤ ·.leftPower) tokens p q
      ∧ OperatorAt (power ≤ ·.leftPower) tokens q
      ∧ ¬ OperandAt tokens (q + 1) ∧ e = operandError tokens (q + 1) := by
  rw [climbFrom_eq] at h
  cases hwalk : readPairs reader (fits power) p (tokens.drop p) with
  | ok walk => rw [hwalk] at h; cases h
  | error e' =>
      rw [hwalk] at h
      cases h
      have hrun := run_of_readPairs_error hreads rfl hwalk
      simp only [fits_iff] at hrun
      exact hrun

/-- Where climbing stops is the end of the longest run. -/
theorem isGreatest_of_climbFrom (hreads : ∀ t ∈ tokens, reader.Reads t)
    (h : climbFrom reader power left tokens p = .ok (f, c)) :
    IsGreatest {q | Run (power ≤ ·.leftPower) tokens p q} c.position := by
  obtain ⟨xs, rfl, hrun, -, hstop, -⟩ := run_of_climbFrom hreads h
  exact hrun.isGreatest fun hpair => hstop hpair.1

/-- An operator without an operand at the end of a run makes climbing
fail. -/
theorem climbFrom_of_run (hreads : ∀ t ∈ tokens, reader.Reads t)
    (hrun : Run (power ≤ ·.leftPower) tokens p q)
    (hoperator : OperatorAt (power ≤ ·.leftPower) tokens q)
    (hoperand : ¬ OperandAt tokens (q + 1)) :
    climbFrom reader power left tokens p
      = .error (operandError tokens (q + 1)) := by
  -- wherever climbing ends, there is the end of the longest run
  have hlongest := hrun.isGreatest fun hpair => hoperand hpair.2
  cases h : climbFrom reader power left tokens p with
  | error e =>
      obtain ⟨r, hrun', -, hoperand', rfl⟩ := run_of_climbFrom_error hreads h
      have hlongest' := hrun'.isGreatest fun hpair => hoperand' hpair.2
      rw [hlongest.unique hlongest']
  | ok result =>
      obtain ⟨f, c⟩ := result
      obtain ⟨xs, rfl, -, -, hstop, -⟩ := run_of_climbFrom hreads h
      rw [hlongest.unique (isGreatest_of_climbFrom hreads h)] at hoperator
      exact absurd hoperator hstop

-- =========================================================== termination

/-- Climbing that gives up where operands have been entered and the loop
has turned too many times in a row. -/
def climbWithin (reader : AtomReader α) : Nat → Int → Formula α → Cursor →
    Option (Except ReadError (Formula α × Cursor))
  | 0, _, _, _ => none
  | rounds + 1, power, left, c =>
    match c.peek.bind (operator? (fits power)) with
    | none => some (.ok (left, c))
    | some op =>
      match operand reader c.next.2 with
      | .error e => some (.error e)
      | .ok (a, d) =>
        match climbWithin reader rounds op.rightPower (.atom a) d.1 with
        | none => none
        | some (.error e) => some (.error e)
        | some (.ok (right, d')) =>
          climbWithin reader rounds power (.binary op left right) d'

/-- Climbing gives no tokens back. -/
theorem rest_length_of_climb
    (h : unbounded (climb reader power left c) = .ok (f, d)) :
    d.rest.length ≤ c.rest.length := by
  cases hclimb : climb reader power left c with
  | error e => rw [hclimb] at h; cases h
  | ok result =>
      obtain ⟨g, d', hd⟩ := result
      rw [hclimb] at h
      cases h
      exact hd

/-- Climbing does not give up where there is a round for every two tokens
that are left, and one more. -/
theorem climbWithin_eq {rounds : Nat} (h : c.rest.length / 2 < rounds)
    (power : Int) (left : Formula α) :
    climbWithin reader rounds power left c
      = some (unbounded (climb reader power left c)) := by
  induction rounds generalizing power left c with
  | zero => omega
  | succ rounds ih =>
      obtain ⟨p, ts⟩ := c
      cases ts with
      | nil =>
          rw [climb_nil]
          rfl
      | cons t ts =>
          rw [climbWithin]
          cases hop : operator? (fits power) t with
          | none =>
              rw [climb_stop reader hop]
              simp only [Cursor.peek, List.head?_cons, Option.bind_some, hop]
          | some op =>
              rw [climb_operator reader hop]
              simp only [Cursor.peek, List.head?_cons, Option.bind_some, hop,
                Cursor.next]
              cases operand reader ⟨p + 1, ts⟩ with
              | error e => rfl
              | ok result =>
                  -- the operator and its operand are behind
                  obtain ⟨a, d, hd⟩ := result
                  simp only [List.length_cons] at h hd
                  dsimp only
                  rw [ih (by omega)]
                  cases hright : unbounded
                      (climb reader op.rightPower (.atom a) d) with
                  | error e => rfl
                  | ok result =>
                      obtain ⟨right, d'⟩ := result
                      have hd' := rest_length_of_climb hright
                      exact ih (by omega) _ _

-- ================================================================ extent

/-- What climbing comes to from a place, at some power and with some
formula on the left. -/
structure Extent (reader : AtomReader α) (tokens : List Token) (p : Nat)
    (power : Int) (left : Formula α) : Prop where
  /-- It ends, within one more round than there could be pairs. -/
  ends : ∀ rounds, (tokens.length - p) / 2 < rounds →
    climbWithin reader rounds power left (.within tokens p)
      = some (climbFrom reader power left tokens p)
  /-- It fails just if an operator that it has to take has no operand. -/
  fails : ∀ e, climbFrom reader power left tokens p = .error e
    ↔ ∃ q, Run (power ≤ ·.leftPower) tokens p q
      ∧ OperatorAt (power ≤ ·.leftPower) tokens q
      ∧ ¬ OperandAt tokens (q + 1) ∧ e = operandError tokens (q + 1)
  /-- Otherwise it stops behind pairs of an operator and an atom, where no
  operator is strong enough, and grafts the pairs. -/
  stops : ∀ f c, climbFrom reader power left tokens p = .ok (f, c) →
    ∃ q xs, c = .within tokens q ∧ q = p + 2 * xs.length
      ∧ ReadAs reader ((tokens.drop p).take (q - p)) xs
      ∧ ¬ OperatorAt (power ≤ ·.leftPower) tokens q
      ∧ f = left.graft xs
  /-- Up to the power of arrows it takes as many pairs as there are. -/
  takesAll : power ≤ 5 →
    ∀ f c, climbFrom reader power left tokens p = .ok (f, c) →
      IsGreatest {q | Run (fun _ => True) tokens p q} c.position
  /-- Up to the power of the others it takes all pairs in front of an
  arrow. -/
  takesJunctions : 5 < power → power ≤ 10 →
    ∀ f c, climbFrom reader power left tokens p = .ok (f, c) →
      IsGreatest {q | Run (· ≠ .imp) tokens p q} c.position
  /-- Above all powers it takes nothing. -/
  takesNothing : 10 < power →
    climbFrom reader power left tokens p = .ok (left, .within tokens p)

/-- Wherever all tokens are read as operands or not at all, climbing has its
extent. Only what it takes depends on the power: each of the three ranges
makes the strong enough operators another set, and the run is the longest
over that set. -/
theorem extent_of_reads (hreads : ∀ t ∈ tokens, reader.Reads t) (p : Nat)
    (power : Int) (left : Formula α) :
    Extent reader tokens p power left where
  ends := by
    intro rounds hrounds
    refine climbWithin_eq ?_ power left
    unfold Cursor.within
    rw [List.length_drop]
    exact hrounds
  fails := by
    intro e
    refine ⟨run_of_climbFrom_error hreads, ?_⟩
    rintro ⟨q, hrun, hoperator, hoperand, rfl⟩
    exact climbFrom_of_run hreads hrun hoperator hoperand
  stops := by
    intro f c h
    obtain ⟨xs, hc, -, hpairs, hstop, hf⟩ := run_of_climbFrom hreads h
    refine ⟨p + 2 * xs.length, xs, hc, rfl, ?_, hstop, hf⟩
    rw [Nat.add_sub_cancel_left]
    exact hpairs
  takesAll := by
    intro hpower f c h
    have hsort : (fun op : Connective => power ≤ op.leftPower)
        = fun _ => True := by
      funext op
      exact eq_true (Connective.le_leftPower hpower op)
    rw [← hsort]
    exact isGreatest_of_climbFrom hreads h
  takesJunctions := by
    intro habove hpower f c h
    have hsort : (fun op : Connective => power ≤ op.leftPower)
        = (· ≠ .imp) := by
      funext op
      exact propext (Connective.le_leftPower_iff habove hpower)
    rw [← hsort]
    exact isGreatest_of_climbFrom hreads h
  takesNothing := fun h => climb_above reader h left _

/-- Climbing among loaded tokens, from any place, at any power and with any
formula on the left, be it a goal or of foreign make. -/
theorem climb_extent (tokens : List Token)
    (hload : ∀ t ∈ tokens, t.isLoaded = true) (p : Nat) (power : Int) :
    (∀ left : Goal, Extent Atom.ofToken tokens p power left)
      ∧ ∀ left : Formula Leaf, Extent Leaf.ofToken tokens p power left :=
  ⟨extent_of_reads (fun t ht => Atom.reads_of_isLoaded (hload t ht)) p power,
    extent_of_reads (fun t ht => Leaf.reads_of_isLoaded (hload t ht)) p power⟩

/-- Behind a plain value stand `and B -> 1 or`. At power six it is joined
with `B`, and climbing stops at the arrow. At power five the last operator
has to be taken, and nothing follows it. -/
theorem climb_extent_cutShort :
    let tokens : List Token :=
      [⟨.and, none⟩, ⟨.identifier, some (.text "B")⟩, ⟨.implies, none⟩,
       ⟨.constant, some (.int 1)⟩, ⟨.or, none⟩]
    let left : Formula Leaf := .atom (.plain .null)
    climbFrom Leaf.ofToken 6 left tokens 0
        = .ok (.and left (.atom (.atom (.var "B"))), .within tokens 2)
      ∧ IsGreatest {q | Run (· ≠ .imp) tokens 0 q} 2
      ∧ climbFrom Leaf.ofToken 5 left tokens 0 = .error (.endOfInput 5) := by
  intro tokens left
  have hload : ∀ t ∈ tokens, t.isLoaded = true := by decide
  have hsix : climbFrom Leaf.ofToken 6 left tokens 0
      = .ok (.and left (.atom (.atom (.var "B"))), .within tokens 2) := by
    rw [climbFrom_eq]
    rfl
  refine ⟨hsix, ?_, ?_⟩
  · exact ((climb_extent tokens hload 0 6).2 left).takesJunctions (by decide)
      (by decide) _ _ hsix
  · refine (((climb_extent tokens hload 0 5).2 left).fails _).2
      ⟨4, ?_, ⟨_, .or, rfl, rfl, by decide⟩, ?_, rfl⟩
    · exact .pair ⟨⟨_, .and, rfl, rfl, by decide⟩, _, rfl, rfl⟩
        (.pair ⟨⟨_, .imp, rfl, rfl, by decide⟩, _, rfl, rfl⟩ (.nil 4))
    · rintro ⟨t, ht, -⟩
      cases ht

end Formula

end Deduction
