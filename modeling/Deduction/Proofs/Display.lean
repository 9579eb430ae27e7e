/-
What is shown determines what is there.

Texts of formulas have no brackets, so in general a text stands for many
formulas. The goals that can be typed are read back from their texts, and
rules only take operands out of formulas. So every formula in a proof of a
typed goal is read back from its text (`ReadsBack.operands` with
`Reaches.obeys`), and for these formulas equal texts mean equal formulas
(`ReadsBack.eq_of_text`).

The same holds for whole lines. A line joins labels, texts and separators,
and could be cut in several ways if a text might hold a separator. It
cannot: commas and bars are not among the characters of a text
(`isInner_text`), so a text ends where the first of them stands, and from
there the rest of the line is cut by induction (`eq_of_line_eq`).
-/
import Deduction.Proofs.Heredity
import Deduction.Proofs.RoundTrip

namespace Deduction

-- ======================================================== reading back

namespace Goal

/-- The goal is what is read from its own text. -/
def ReadsBack (limit : Nat) (f : Goal) : Prop :=
  Goal.parse limit f.text = .ok f

/-- The formulas that are read back from their text, by their looks. -/
theorem readsBack_iff {limit : Nat} {f : Goal} :
    ReadsBack limit f ↔
      f.isCanonical = true ∧ f.allAtoms Atom.isShort = true
        ∧ f.tokens.countP (fun t => t.kind = .implies) ≤ limit := by
  constructor
  · exact isCanonical_of_parse
  · rintro ⟨hcanonical, hshort, hlimit⟩
    exact parse_text hcanonical hshort hlimit

/-- With a formula, its operands are read back. -/
theorem ReadsBack.operands {limit : Nat} {op : Connective} {left right : Goal}
    (h : ReadsBack limit (.binary op left right)) :
    ReadsBack limit left ∧ ReadsBack limit right := by
  obtain ⟨hcanonical, hshort, hlimit⟩ := readsBack_iff.1 h
  obtain ⟨hshaped, hproper⟩ := isCanonical_iff.1 hcanonical
  obtain ⟨-, -, hls, hrs⟩ := Formula.isShaped_binary.1 hshaped
  obtain ⟨hlp, hrp⟩ := Formula.allAtoms_binary.1 hproper
  obtain ⟨hlshort, hrshort⟩ := Formula.allAtoms_binary.1 hshort
  rw [Formula.tokens, List.countP_append, List.countP_cons] at hlimit
  constructor
  · exact readsBack_iff.2 ⟨isCanonical_iff.2 ⟨hls, hlp⟩, hlshort, by omega⟩
  · exact readsBack_iff.2 ⟨isCanonical_iff.2 ⟨hrs, hrp⟩, hrshort, by omega⟩

theorem ReadsBack.allProper {limit : Nat} {f : Goal} (h : ReadsBack limit f) :
    f.allAtoms Atom.isProper = true :=
  (isCanonical_iff.1 (readsBack_iff.1 h).1).2

/-- Of the goals that are read back no two have the same text. -/
theorem ReadsBack.eq_of_text {limit limit' : Nat} {f g : Goal}
    (hf : ReadsBack limit f) (hg : ReadsBack limit' g)
    (h : f.text = g.text) : f = g := by
  obtain ⟨tokens, hscan, hparse, -⟩ := parse_eq_ok_iff.1 hf
  obtain ⟨tokens', hscan', hparse', -⟩ := parse_eq_ok_iff.1 hg
  rw [h, hscan'] at hscan
  injection hscan with hscan
  rw [hscan, hparse] at hparse'
  injection hparse'

end Goal

-- ========================================================== characters

/-- The characters that do not end the text of a hypothesis on a line. -/
def isInner (c : Char) : Bool := c ≠ ',' && c ≠ '|'

/-- Letters and digits can stand inside a formula. -/
theorem isInner_of_isWordChar {c : Char} (hc : Token.isWordChar c = true) :
    isInner c = true := by
  have hne : ∀ d : Char, Token.isWordChar d = false → c ≠ d := by
    rintro d hd rfl
    rw [hc] at hd
    cases hd
  have hcomma := hne ',' (by decide)
  have hbar := hne '|' (by decide)
  simp [isInner, hcomma, hbar]

/-- The text of an atom has only characters that can stand inside a formula.
The digits of a constant are what the printer of numbers writes. -/
theorem Atom.isInner_text {a : Atom} (ha : a.isProper = true) :
    ∀ c ∈ a.text.toList, isInner c = true := by
  intro c hc
  refine isInner_of_isWordChar ?_
  unfold Token.isWordChar
  cases a with
  | var name =>
      unfold isProper at ha
      rw [Bool.and_eq_true] at ha
      change c ∈ name.toList at hc
      cases hname : name.toList with
      | nil => rw [hname] at hc; cases hc
      | cons d ds =>
          rw [hname] at hc ha
          have hword := ha.1
          simp only [Token.isName, Bool.and_eq_true, List.all_eq_true] at hword
          rcases List.mem_cons.1 hc with rfl | hc
          · rw [hword.1, Bool.true_or]
          · exact hword.2 c hc
  | const n =>
      rw [toList_text_const (of_decide_eq_true ha)] at hc
      have hdigits := Token.isDigits_toDigits n.toNat
      simp only [Token.isDigits, Bool.and_eq_true, List.all_eq_true] at hdigits
      rw [hdigits.2 c hc, Bool.or_true]

/-- No separator of a line is part of the text of a formula. -/
theorem Formula.isInner_text {f : Goal} (hf : f.allAtoms Atom.isProper = true) :
    ∀ c ∈ f.text.toList, isInner c = true := by
  induction f with
  | atom a => exact a.isInner_text hf
  | binary op left right ihl ihr =>
      obtain ⟨hl, hr⟩ := allAtoms_binary.1 hf
      have hsymbol : ∀ c ∈ op.symbol.toList, isInner c = true := by
        refine List.all_eq_true.1 ?_
        cases op <;> decide
      intro c hc
      simp only [toList_text_binary, List.mem_append, List.mem_cons] at hc
      rcases hc with hc | rfl | hc | rfl | hc
      · exact ihl hl c hc
      · decide
      · exact hsymbol c hc
      · decide
      · exact ihr hr c hc

/-- A list is cut in one way only into inner characters and a rest that
begins with none. -/
theorem eq_of_inner_append {run run' rest rest' : List Char}
    (hrun : ∀ c ∈ run, isInner c = true) (hrest : Token.Stops isInner rest)
    (hrun' : ∀ c ∈ run', isInner c = true)
    (hrest' : Token.Stops isInner rest') (h : run ++ rest = run' ++ rest') :
    run = run' ∧ rest = rest' := by
  obtain ⟨htake, hdrop⟩ := Token.takeWhile_append_stops hrun hrest
  obtain ⟨htake', hdrop'⟩ := Token.takeWhile_append_stops hrun' hrest'
  rw [h] at htake hdrop
  exact ⟨htake.symm.trans htake', hdrop.symm.trans hdrop'⟩

-- =============================================================== lines

namespace Sequent

/-- What stands in front of a hypothesis. -/
def label (i : Nat) : List Char := ("H" ++ toString i ++ ": ").toList

/-- What follows the text of a hypothesis: the hypotheses from the given
number on, and the goal. -/
def lineRest (goal : Goal) (i : Nat) : List Goal → List Char
  | [] => ' ' :: '|' :: '-' :: ' ' :: goal.text.toList
  | h :: hs =>
    ',' :: ' ' :: (label i ++ (h.text.toList ++ lineRest goal (i + 1) hs))

/-- The last hypothesis is followed by a space and then by a bar. -/
theorem append_lineRest_nil (goal : Goal) (i : Nat) (cs : List Char) :
    cs ++ lineRest goal i []
      = (cs ++ [' ']) ++ '|' :: '-' :: ' ' :: goal.text.toList := by
  rw [lineRest, List.append_assoc]
  rfl

/-- The hypotheses of a line, from some number on: each has its label before
it, and behind it the rest of the line. -/
theorem toList_hypotheses (goal h : Goal) (hs : List Goal) (i : Nat) :
    (", ".intercalate ((h :: hs).mapIdx fun j k =>
        "H" ++ toString (i + j) ++ ": " ++ k.text)
      ++ " " ++ ("|- " ++ goal.text)).toList
      = label i ++ (h.text.toList ++ lineRest goal (i + 1) hs) := by
  induction hs generalizing h i with
  | nil =>
      rw [List.mapIdx_cons, List.mapIdx_nil, String.intercalate_singleton]
      simp [label, lineRest]
  | cons k hs ih =>
      have hnext := ih k (i + 1)
      rw [List.mapIdx_cons, List.mapIdx_cons] at *
      simp only [Nat.add_zero, Nat.add_assoc, Nat.add_comm 1,
        String.intercalate_cons_cons, String.toList_append,
        List.append_assoc] at hnext ⊢
      rw [hnext]
      simp [label, lineRest]

/-- A line with hypotheses begins with the first label. -/
theorem toList_text_cons (goal h : Goal) (hs : List Goal) :
    (Sequent.text ⟨h :: hs, goal⟩).toList
      = label 0 ++ (h.text.toList ++ lineRest goal 1 hs) := by
  have hline := toList_hypotheses goal h hs 0
  simp only [Nat.zero_add] at hline
  rw [← hline]
  simp [Sequent.text]

theorem toList_text_nil (goal : Goal) :
    (Sequent.text ⟨[], goal⟩).toList = '|' :: '-' :: ' ' :: goal.text.toList := by
  simp [Sequent.text]

variable {limit limit' : Nat}

/-- After a label, a line of formulas that are read back is cut in one
way only. -/
theorem eq_of_line_eq {goal goal' h k : Goal} {hs ks : List Goal}
    (hhs : ∀ f ∈ h :: hs, Goal.ReadsBack limit f)
    (hks : ∀ f ∈ k :: ks, Goal.ReadsBack limit' f)
    (hgoal : Goal.ReadsBack limit goal) (hgoal' : Goal.ReadsBack limit' goal')
    (i : Nat)
    (hline : h.text.toList ++ lineRest goal i hs
      = k.text.toList ++ lineRest goal' i ks) :
    h :: hs = k :: ks ∧ goal = goal' := by
  have hcomma : ∀ rest, Token.Stops isInner (',' :: rest) :=
    Token.stops_cons (by decide)
  have hbar : ∀ rest, Token.Stops isInner ('|' :: rest) :=
    Token.stops_cons (by decide)
  -- the text before a comma, and the text with its space before a bar
  have hinner : ∀ {limit} {f : Goal}, Goal.ReadsBack limit f →
      (∀ c ∈ f.text.toList, isInner c = true)
        ∧ ∀ c ∈ f.text.toList ++ [' '], isInner c = true := by
    intro limit f hf
    have htext := Formula.isInner_text hf.allProper
    have hspace : isInner ' ' = true := by decide
    exact ⟨htext, List.forall_mem_append.2
      ⟨htext, List.forall_mem_singleton.2 hspace⟩⟩
  induction hs generalizing h k ks i with
  | nil =>
      obtain ⟨hh, -⟩ := List.forall_mem_cons.1 hhs
      obtain ⟨hk, -⟩ := List.forall_mem_cons.1 hks
      rw [append_lineRest_nil] at hline
      cases ks with
      | nil =>
          rw [append_lineRest_nil] at hline
          obtain ⟨htext, hrest⟩ := eq_of_inner_append (hinner hh).2 (hbar _)
            (hinner hk).2 (hbar _) hline
          have hsame := hh.eq_of_text hk
            (String.toList_inj.1 (List.append_cancel_right htext))
          simp only [List.cons.injEq, true_and] at hrest
          exact ⟨by rw [hsame], hgoal.eq_of_text hgoal' (String.toList_inj.1 hrest)⟩
      | cons k' ks =>
          rw [lineRest] at hline
          obtain ⟨-, hrest⟩ := eq_of_inner_append (hinner hh).2 (hbar _)
            (hinner hk).1 (hcomma _) hline
          simp at hrest
  | cons h' hs ih =>
      obtain ⟨hh, hhs⟩ := List.forall_mem_cons.1 hhs
      obtain ⟨hk, hks⟩ := List.forall_mem_cons.1 hks
      rw [lineRest] at hline
      cases ks with
      | nil =>
          rw [append_lineRest_nil] at hline
          obtain ⟨-, hrest⟩ := eq_of_inner_append (hinner hh).1 (hcomma _)
            (hinner hk).2 (hbar _) hline
          simp at hrest
      | cons k' ks =>
          rw [lineRest] at hline
          obtain ⟨htext, hrest⟩ := eq_of_inner_append (hinner hh).1 (hcomma _)
            (hinner hk).1 (hcomma _) hline
          have hsame := hh.eq_of_text hk (String.toList_inj.1 htext)
          simp only [List.cons.injEq, true_and] at hrest
          obtain ⟨hothers, hgoals⟩ :=
            ih hhs hks (i + 1) (List.append_cancel_left hrest)
          exact ⟨by rw [hsame, hothers], hgoals⟩

/-- Sequents of formulas that are read back are told apart by their
lines. -/
theorem eq_of_text_eq {s s' : Sequent Atom}
    (hs : s.Obeys (Goal.ReadsBack limit) (Goal.ReadsBack limit))
    (hs' : s'.Obeys (Goal.ReadsBack limit') (Goal.ReadsBack limit'))
    (htext : s.text = s'.text) : s = s' := by
  obtain ⟨context, goal⟩ := s
  obtain ⟨context', goal'⟩ := s'
  obtain ⟨hcontext, hgoal⟩ := hs
  obtain ⟨hcontext', hgoal'⟩ := hs'
  have hchars := congrArg String.toList htext
  -- a line begins with a label just if there is a hypothesis
  cases context with
  | nil =>
      cases context' with
      | nil =>
          rw [toList_text_nil, toList_text_nil] at hchars
          simp only [List.cons.injEq, true_and] at hchars
          have hgoals : goal = goal' :=
            hgoal.eq_of_text hgoal' (String.toList_inj.1 hchars)
          rw [hgoals]
      | cons k ks =>
          rw [toList_text_nil, toList_text_cons] at hchars
          simp [label] at hchars
  | cons h hs =>
      cases context' with
      | nil =>
          rw [toList_text_nil, toList_text_cons] at hchars
          simp [label] at hchars
      | cons k ks =>
          rw [toList_text_cons, toList_text_cons] at hchars
          have hsame : h :: hs = k :: ks ∧ goal = goal' :=
            eq_of_line_eq hcontext hcontext' hgoal hgoal' 1
              (List.append_cancel_left hchars)
          rw [hsame.1, hsame.2]

end Sequent

-- ======================================================== typed goals

namespace ProofTree

/-- A node of a tree that some attempts lead to from a goal that was read
from a text. -/
def Typed (limit : Nat) (n : ProofTree Atom) : Prop :=
  ∃ text goal depth attempts path,
    Goal.parse limit text = .ok goal
      ∧ ((ofGoal goal).run depth attempts).get? path = some n

/-- What rules hand down from every goal that can be typed holds all over
its proofs. -/
theorem Typed.inherits {P Q : Formula Atom → Prop} (hd : HandedDown P Q)
    {limit : Nat} (hQ : ∀ {text : String} {goal : Goal},
      Goal.parse limit text = .ok goal → Q goal)
    {n : ProofTree Atom} (hn : Typed limit n) : n.state.Obeys P Q := by
  obtain ⟨text, goal, depth, attempts, path, hparse, hget⟩ := hn
  exact (reaches_run depth (ofGoal goal) attempts).obeys hd (hQ hparse) hget

/-- All formulas in the proof of a typed goal are read back. -/
theorem Typed.obeys {limit : Nat} {n : ProofTree Atom} (hn : Typed limit n) :
    n.state.Obeys (Goal.ReadsBack limit) (Goal.ReadsBack limit) :=
  hn.inherits (.of_operands Goal.ReadsBack.operands) fun hparse =>
    Goal.readsBack_iff.2 (Goal.isCanonical_of_parse hparse)

/-- An assumption is accepted just if the texts of hypothesis and goal are
equal, when these determine the formulas. -/
theorem accept?_assumption_iff {limit : Nat} {n : ProofTree Atom}
    {s : Sequent Atom} (hstate : n.state = .table s)
    (hs : s.Obeys (Goal.ReadsBack limit) (Goal.ReadsBack limit)) (i : Int) :
    (n.accept? (.assumption (.int i))).isSome = true ↔
      0 ≤ i ∧ i < n.state.hypothesisCount
        ∧ s.context[i.toNat]?.map Formula.text = some s.goal.text := by
  have hcount : n.state.hypothesisCount = s.context.length := by
    rw [hstate]
    rfl
  rw [isSome_accept?_iff hstate, hcount]
  constructor
  · rintro ⟨states, hinf⟩
    cases hinf with
    | @assumption index h hh hsame =>
        obtain ⟨hi, hget⟩ := Sequent.hypothesis?_int_iff.1 hh
        obtain ⟨hlt, -⟩ := List.getElem?_eq_some_iff.1 hget
        rw [hget, (Formula.same_iff_eq h s.goal).1 hsame]
        exact ⟨hi, by omega, rfl⟩
  · rintro ⟨hi, -, htext⟩
    obtain ⟨h, hget, htext⟩ := Option.map_eq_some_iff.1 htext
    have hh : Goal.ReadsBack limit h := hs.1 h (List.mem_of_getElem? hget)
    have hsame : h = s.goal := hh.eq_of_text hs.2 htext
    exact ⟨_, .assumption (Sequent.hypothesis?_int_iff.2 ⟨hi, hget⟩)
      ((Formula.same_iff_eq h s.goal).2 hsame)⟩

/-- What is shown of a typed goal's proof determines what is there: all
formulas are read back from their texts, an assumption is accepted just if
it names a hypothesis with the text of the goal, and equal lines belong to
equal states, also in different trees. -/
theorem shown_determines {limit : Nat} {n : ProofTree Atom}
    {s : Sequent Atom} (hn : Typed limit n) (hs : n.state = .table s) :
    (∀ f ∈ s.context ++ [s.goal], Goal.parse limit f.text = .ok f)
      ∧ (∀ i : Int, (n.accept? (.assumption (.int i))).isSome = true ↔
          0 ≤ i ∧ i < n.state.hypothesisCount
            ∧ s.context[i.toNat]?.map Formula.text = some s.goal.text)
      ∧ ∀ {limit' : Nat} {n' : ProofTree Atom} {s' : Sequent Atom},
          Typed limit' n' → n'.state = .table s' →
          n.state.text = n'.state.text → n.state = n'.state := by
  have hobeys := hn.obeys
  rw [hs] at hobeys
  refine ⟨?_, accept?_assumption_iff hs hobeys, ?_⟩
  · exact List.forall_mem_append.2
      ⟨hobeys.1, List.forall_mem_singleton.2 hobeys.2⟩
  · intro limit' n' s' hn' hs' htext
    have hobeys' := hn'.obeys
    rw [hs'] at hobeys'
    rw [hs, hs'] at htext
    rw [hs, hs', Sequent.eq_of_text_eq hobeys hobeys' htext]

/-- A goal with two ways to the same sequent. -/
def forked : Goal :=
  .imp (.and (.atom (.var "A")) (.atom (.const 7)))
    (.or (.atom (.const 7)) (.atom (.const 7)))

/-- One of the ways. -/
def forkedBy (rule : Rule) : ProofTree Atom :=
  (ofGoal forked).run 9
    [.move (.array []) (.rule .implIntro),
     .move (.array [.int 0]) (.rule (.andElim (.int 0))),
     .move (.array [.int 0, .int 0]) (.rule rule)]

theorem typed_forkedBy (rule : Rule) (path : Path) {n : ProofTree Atom}
    (hget : (forkedBy rule).get? path = some n) : Typed 1 n :=
  ⟨forked.text, forked, 9, _, path,
    Goal.parse_text (by decide) (by decide) (by decide), hget⟩

/-- Both ways lead to the line `H0: A and 7, H1: A, H2: 7 |- 7`, where the
third hypothesis is accepted and the second is not. -/
theorem shown_determines_forked :
    ∃ n n', (forkedBy .orIntro1).get? [0, 0, 0] = some n
      ∧ (forkedBy .orIntro2).get? [0, 0, 0] = some n'
      ∧ n.state.text = "H0: A and 7, H1: A, H2: 7 |- 7"
      ∧ n.state = n'.state
      ∧ Goal.parse 1 "A and 7"
        = .ok (.and (.atom (.var "A")) (.atom (.const 7)))
      ∧ (n.accept? (.assumption (.int 2))).isSome = true
      ∧ ¬ (n.accept? (.assumption (.int 1))).isSome = true := by
  have hn := typed_forkedBy .orIntro1 [0, 0, 0] rfl
  have hn' := typed_forkedBy .orIntro2 [0, 0, 0] rfl
  obtain ⟨hread, haccept, hlines⟩ := shown_determines hn rfl
  refine ⟨_, _, rfl, rfl, by decide, hlines hn' rfl rfl, ?_, ?_, ?_⟩
  · exact hread (.and (.atom (.var "A")) (.atom (.const 7))) (by decide)
  · exact (haccept 2).2 (by decide)
  · exact fun h => absurd ((haccept 1).1 h) (by decide)

end ProofTree

end Deduction
