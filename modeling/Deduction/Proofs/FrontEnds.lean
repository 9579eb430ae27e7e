/-
Both front ends reach the same proofs.

A page sends requests, with any values in them, and a console reads keys.
Neither shows a tree that accepted steps would not lead to from a goal
that can be read: that is what the sessions keep in step with. The other
way round, every such tree is faithful, and so it comes about rule by rule
from its goal (`Faithful.grown`). The page names a node by its path and a
rule by its name and number; the console goes to the node's line and types
the number (`Console.Session.Ready.accept`).

A number that is typed must not be too long to be read, so for the console
no node may have too many hypotheses. That is no bound on what can be
held: it is far beyond all lists that a machine has room for.
-/
import Deduction.Proofs.Completeness
import Deduction.Proofs.Keyboard
import Deduction.Proofs.Requests

namespace Deduction

open ProofTree

/-- Accepted steps lead to the tree from a goal that can be read. -/
def ProofTree.OfText (limit : Nat) (t : ProofTree Atom) : Prop :=
  ∃ text goal, Goal.read limit text = .ok goal ∧ Reaches (.ofGoal goal) t

/-- The hypotheses of every node have numbers that are short enough to be
read. -/
def ProofTree.Numbered (t : ProofTree Atom) : Prop :=
  ∀ entry ∈ t.walk,
    entry.2.state.hypothesisCount < Nat.pow 10 Numeral.maxDigits

-- ================================================================= page

namespace Web

/-- The requests that change the proof. -/
def changing : List String := ["set_goal", "apply_rule", "undo"]

/-- After some of these requests, each with one value, this is the proof. -/
def Reached (limit : Nat) (t : ProofTree Atom) : Prop :=
  ∃ requests : List (String × Value), (∀ r ∈ requests, r.1 ∈ changing)
    ∧ (Session.empty.after limit (requests.map fun r => (r.1, [r.2]))).proof
      = some t

variable {limit : Nat} {t u found new : ProofTree Atom} {path : Path}
  {rule : Rule}

/-- What the page shows comes from a goal that can be read. -/
theorem Reached.ofText (h : Reached limit t) : t.OfText limit := by
  obtain ⟨requests, -, hproof⟩ := h
  obtain ⟨later, e, goal, -, hreads, hreach⟩ :=
    (Session.tracks_after limit .ample _).reaches t hproof
  obtain ⟨fields, source, -, -, hread⟩ := hreads
  exact ⟨source.chars, goal, hread, hreach⟩

/-- The page reaches the start of every goal that can be read. -/
theorem reached_ofGoal {text : String} {goal : Goal}
    (hread : Goal.read limit text = .ok goal) :
    Reached limit (.ofGoal goal) := by
  refine ⟨[("set_goal", .object [("text", .text text)])], ?_, ?_⟩
  · intro r hr
    rw [List.mem_singleton.1 hr]
    exact List.mem_cons_self
  · show (Session.empty.setGoal limit (.text text)).session.proof = _
    simp only [Session.setGoal, Session.readGoal, Source.ofValue?,
      Source.ofText, hread]
    rfl

/-- The fields of a request for a rule at a node. -/
def asking (path : Path) (rule : Rule) : List (String × Value) :=
  [("path", Outline.pathValue path), ("rule", .text rule.name),
   ("index", rule.index?.getD Rule.defaultIndex)]

/-- A rule that is accepted somewhere is had by these fields. -/
theorem requestedRule_asking {s : Sequent Atom} {states : List (State Atom)}
    (hinf : s.Infers rule states) (path : Path) :
    Session.requestedRule (asking path rule) = .ok rule := by
  obtain ⟨n, hn⟩ : ∃ n : Int, rule.index?.getD Rule.defaultIndex = .int n := by
    cases hinf with
    | implIntro | andIntro | orIntro1 | orIntro2 => exact ⟨0, rfl⟩
    | andElim hf | orElim hf | assumption hf =>
        obtain ⟨i, rfl, -⟩ := Sequent.position_of_hypothesis? hf
        exact ⟨i, rfl⟩
  have hindex : (Value.lookup "index" (asking path rule)).getD
      Rule.defaultIndex = .int n := hn
  have hname : (Value.lookup "rule" (asking path rule)).getD .null
      = .text rule.name := rfl
  have hmake := Rule.make_name rule
  rw [hn] at hmake
  simp only [Session.requestedRule, hindex, hname, Value.toInteger, hmake]

/-- From a tree that it reaches, the page reaches the one after a rule that
is accepted at a node, by asking for it there. -/
theorem Reached.accept (h : Reached limit u) (hget : u.get? path = some found)
    (haccept : found.accept? rule = some new) :
    Reached limit (u.replace path new) := by
  obtain ⟨requests, hchanging, hproof⟩ := h
  have hstep : found.step? (.apply rule) = some new := haccept
  have hrequested : Session.requestedRule (asking path rule) = .ok rule := by
    rcases step?_cases hstep with
      ⟨s, rule', states, hrule, -, hinf, -⟩ | ⟨hundo, -, -⟩
    · injection hrule with hrule
      rw [hrule]
      exact requestedRule_asking hinf path
    · cases hundo
  have haccepts : (Session.empty.after limit
      (requests.map fun r => (r.1, [r.2]))).Accepts (asking path rule)
      (u.replace path new) :=
    ⟨u, path, rule, hproof, find_pathValue hget, hrequested,
      stepAt?_accepted.2 ⟨found, new, hget, hstep, rfl⟩⟩
  obtain ⟨log, hhandle⟩ := Session.handle_of_accepts limit haccepts
  refine ⟨requests ++ [("apply_rule", .object (asking path rule))], ?_, ?_⟩
  · intro r hr
    rcases List.mem_append.1 hr with hr | hr
    · exact hchanging r hr
    · rw [List.mem_singleton.1 hr]
      exact List.mem_cons_of_mem _ List.mem_cons_self
  · rw [List.map_append, List.map_singleton, Session.after_concat, hhandle]

/-- So the page reaches all trees that come from goals that can be read, and
no others. -/
theorem reached_iff_ofText : Reached limit t ↔ t.OfText limit := by
  refine ⟨Reached.ofText, ?_⟩
  rintro ⟨text, goal, hread, hreach⟩
  have hf : Faithful t := faithful_of_reaches (.leaf _) hreach
  have hroot : t.state = .ofGoal goal := state_of_reaches hreach
  refine hf.grown (fun _ _ => true) (fun _ _ _ _ _ => rfl) ?_ ?_
  · rw [hroot]
    exact reached_ofGoal hread
  · intro u path found new rule hu hget haccept _
    exact hu.accept hget haccept

end Web

-- ============================================================== console

namespace Console

/-- After some keys the program waits for the next one, and this is the
proof. -/
def Reached (limit : Nat) (t : ProofTree Atom) : Prop :=
  ∃ lines cols goal keys s,
    (Session.run limit lines cols goal keys).1.next = .wait s
      ∧ s.root = some t

variable {limit : Nat} {t : ProofTree Atom}

theorem Reached.ofText (h : Reached limit t) : t.OfText limit := by
  obtain ⟨lines, cols, goal, keys, s, hwait, hroot⟩ := h
  have hsteady := (Session.sound_run limit lines cols goal keys).2 s hwait
  obtain ⟨f, hread, hreach⟩ := hsteady.derived t hroot
  exact ⟨s.goalText, f, hread, hreach⟩

/-- The console reaches them too, if the numbers of hypotheses can be typed:
it begins with the goal, and one rule after the other goes through. -/
theorem reached_of_ofText (hnumbered : t.Numbered) (h : t.OfText limit) :
    Reached limit t := by
  obtain ⟨text, goal, hread, hreach⟩ := h
  have hf : Faithful t := faithful_of_reaches (.leaf _) hreach
  have hroot : t.state = .ofGoal goal := state_of_reaches hreach
  have hready : ∃ line, Session.Ready limit 8 40 text t line := by
    refine hf.grown (motive := fun u =>
      ∃ line, Session.Ready limit 8 40 text u line)
      (fun state _ => decide
        (state.hypothesisCount < Nat.pow 10 Numeral.maxDigits)) ?_ ?_ ?_
    · intro path n rule hget _
      exact decide_eq_true (hnumbered (path, n) (mem_walk.2 hget))
    · rw [hroot]
      exact ⟨0, Session.ready_start hread⟩
    · rintro u path found new rule ⟨line, hu⟩ hget haccept hwanted
      exact hu.accept hget haccept (of_decide_eq_true hwanted)
  obtain ⟨line, screen, s, ⟨keys, log, hrun⟩, -, hs, -, -⟩ := hready
  exact ⟨8, 40, .text text, keys, s, by rw [hrun], hs⟩

end Console

-- ================================================================= both

namespace ProofTree

/-- With a limit that is high enough, what is parsed can be read. -/
theorem exists_ofText_iff {t : ProofTree Atom} :
    (∃ limit, t.OfText limit) ↔ ∃ limit text goal,
      Goal.parse limit text = .ok goal ∧ Reaches (.ofGoal goal) t := by
  constructor
  · rintro ⟨limit, text, goal, hread, hreach⟩
    exact ⟨limit, text, goal, (Goal.read_eq_ok_iff.1 hread).1, hreach⟩
  · rintro ⟨limit, text, goal, hparse, hreach⟩
    obtain ⟨tokens, hscan, hparse, hlimit⟩ := Goal.parse_eq_ok_iff.1 hparse
    have hhigh : Goal.parse (max limit goal.depth) text = .ok goal :=
      Goal.parse_eq_ok_iff.2 ⟨tokens, hscan, hparse, by omega⟩
    exact ⟨max limit goal.depth, text, goal,
      Goal.read_eq_ok_iff.2 ⟨hhigh, Nat.le_max_right _ _⟩, hreach⟩

/-- Both front ends reach the trees that accepted steps lead to from goals
that can be read, and no others; on the console the numbers that have to be
typed must not be too long. If no limit is set, these are the goals that
can be parsed. -/
theorem front_ends_agree (t : ProofTree Atom) :
    (∀ limit, (Web.Reached limit t ↔ t.OfText limit)
      ∧ (Console.Reached limit t → t.OfText limit)
      ∧ (t.Numbered → (Web.Reached limit t ↔ Console.Reached limit t)))
    ∧ ((∃ limit, t.OfText limit) ↔ ∃ limit text goal,
        Goal.parse limit text = .ok goal ∧ Reaches (.ofGoal goal) t) := by
  refine ⟨fun limit => ⟨Web.reached_iff_ofText, Console.Reached.ofText, ?_⟩,
    exists_ofText_iff⟩
  intro hnumbered
  constructor
  · intro hweb
    exact Console.reached_of_ofText hnumbered hweb.ofText
  · intro hconsole
    exact Web.reached_iff_ofText.2 hconsole.ofText

/-- The parts of a conjunction, the other way round. -/
def exchanged : Goal :=
  .imp (.and (.atom (.var "A")) (.atom (.var "B")))
    (.and (.atom (.var "B")) (.atom (.var "A")))

/-- Its proof, but for the last branch. -/
def exchanging : ProofTree Atom :=
  (ofGoal exchanged).run 9
    [.move (.array []) (.rule .implIntro),
     .move (.array [.int 0]) (.rule (.andElim (.int 0))),
     .move (.array [.int 0, .int 0]) (.rule .andIntro),
     .move (.array [.int 0, .int 0, .int 0]) (.rule (.assumption (.int 2)))]

/-- The tree has a closed branch and an open one, and both front ends
reach it. -/
theorem front_ends_agree_exchanging :
    exchanging.openGoals.map (·.1) = [[0, 0, 1]] ∧ exchanging.Numbered
      ∧ Web.Reached 2 exchanging ∧ Console.Reached 2 exchanging := by
  have hread : Goal.read 2 exchanged.text = .ok exchanged :=
    Goal.read_text (by decide) (by decide) (by decide)
  have hreach : Reaches (.ofGoal exchanged) exchanging := reaches_run 9 _ _
  have hfew : exchanging.walk.all
      (fun entry => decide (entry.2.state.hypothesisCount < 10)) = true := by
    decide +kernel
  have hten : ∀ k, k ≠ 0 → 10 ≤ Nat.pow 10 k :=
    fun k hk => Nat.le_self_pow hk 10
  have hnumbered : exchanging.Numbered := by
    intro entry hentry
    have hlt := of_decide_eq_true (List.all_eq_true.1 hfew entry hentry)
    exact Nat.lt_of_lt_of_le hlt (hten Numeral.maxDigits (by decide))
  obtain ⟨hweb, -, hboth⟩ := (front_ends_agree exchanging).1 2
  have hreached := hweb.2 ⟨exchanged.text, exchanged, hread, hreach⟩
  exact ⟨by decide +kernel, hnumbered, hreached, (hboth hnumbered).1 hreached⟩

end ProofTree

end Deduction
