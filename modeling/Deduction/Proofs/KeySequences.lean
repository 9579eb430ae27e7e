/-
The console program, for all key sequences.

Reading keys one after the other is a fold over them (`run_concat`), so
what one key keeps, a run keeps: wherever a key is awaited the session is
steady (`sound_run`), and the next key comes to one of the outcomes that
there are (`outcome_run`).
-/
import Deduction.Proofs.Keys
import Deduction.Proofs.RoundTrip
import Mathlib.Data.List.Induction

namespace Deduction.Console

-- ================================================================= runs

/-- Whether a key is awaited. -/
def Next.isWait {σ ω : Type} : Next σ ω → Bool
  | .wait _ => true
  | _ => false

namespace Turn

variable {σ ω : Type}

theorem logging_nil (turn : Turn σ ω) : turn.logging [] = turn := rfl

/-- The last of some keys is read if one is awaited then. -/
theorem run_concat (step : Stepper σ ω) (turn : Turn σ ω)
    (keys : List Keystroke) (k : Keystroke) :
    (run step turn (keys ++ [k])).1
      = match (run step turn keys).1.next with
        | .wait state =>
          (step ((run step turn keys).1.screen.press k) state k).logging
            (run step turn keys).1.log
        | _ => (run step turn keys).1 := by
  induction keys generalizing turn with
  | nil =>
      obtain ⟨screen, log, next⟩ := turn
      cases next with
      | wait state =>
          simp only [List.nil_append, run]
          generalize (step (screen.press k) state k).logging log = turn
          obtain ⟨screen', log', next'⟩ := turn
          cases next' <;> rfl
      | done result => rfl
      | failed cause => rfl
  | cons key keys ih =>
      obtain ⟨screen, log, next⟩ := turn
      cases next with
      | wait state =>
          rw [List.cons_append, run, run]
          exact ih _
      | done result => rfl
      | failed cause => rfl

/-- What holds of the first turn, and of each next one wherever a key is
awaited, holds of the last turn of a run. -/
theorem run_invariant {step : Stepper σ ω} (holds : Turn σ ω → Prop)
    (hstep : ∀ screen log state k, holds ⟨screen, log, .wait state⟩ →
      holds ((step (screen.press k) state k).logging log))
    {turn : Turn σ ω} (hstart : holds turn) (keys : List Keystroke) :
    holds (run step turn keys).1 := by
  induction keys generalizing turn with
  | nil =>
      obtain ⟨screen, log, next⟩ := turn
      cases next <;> exact hstart
  | cons k keys ih =>
      obtain ⟨screen, log, next⟩ := turn
      cases next with
      | wait state => exact ih (hstep screen log state k hstart)
      | done result => exact hstart
      | failed cause => exact hstart

/-- A run that waits after a last key was waiting before it. -/
theorem exists_wait_of_concat {step : Stepper σ ω} {turn : Turn σ ω}
    {keys : List Keystroke} {k : Keystroke} {state' : σ}
    (h : (run step turn (keys ++ [k])).1.next = .wait state') :
    ∃ state, (run step turn keys).1.next = .wait state := by
  rw [run_concat] at h
  cases hnext : (run step turn keys).1.next with
  | wait state => exact ⟨state, rfl⟩
  | done result => simp only [hnext, reduceCtorEq] at h
  | failed cause => simp only [hnext, reduceCtorEq] at h

end Turn

namespace Session

variable {limit : Nat} {screen screen' : Screen} {s : Session}
  {k : Keystroke}

-- ============================================================ whole runs

/-- The turn does not end at a line without a node, and if it waits, then
in a steady session. -/
def Sound (limit : Nat) (turn : Turn) : Prop :=
  turn.next ≠ .failed .selection
    ∧ ∀ s, turn.next = .wait s → Steady limit turn.screen s

theorem sound_wait (h : Steady limit screen s) (log : List Log.Record) :
    Sound limit ⟨screen, log, .wait s⟩ := by
  refine ⟨nofun, ?_⟩
  rintro _ ⟨⟩
  exact h

theorem sound_failed (screen : Screen) (log : List Log.Record)
    {cause : Fault} (h : cause ≠ .selection) :
    Sound limit ⟨screen, log, .failed cause⟩ := by
  refine ⟨?_, nofun⟩
  rintro ⟨⟩
  exact h rfl

/-- Whatever a key comes to is sound. -/
theorem Outcome.sound {turn : Turn} (h : Outcome limit screen s k turn) :
    Sound limit turn := by
  cases h with
  | acted _ _ _ _ _ _ hs' => exact sound_wait hs' _
  | entered _ _ _ hs' => exact sound_wait hs' _
  | kept _ _ _ _ hs' => exact sound_wait hs' _
  | left => exact ⟨nofun, nofun⟩
  | failed hcause => exact sound_failed _ _ hcause

/-- What cannot be drawn ends in a fault, and all else is drawn in full. -/
theorem redrawWithin_cases (stops : Atom → Option Formula.Obstacle)
    (limit : Nat) (screen : Screen) (goalText : String)
    (root : Option (ProofTree Atom)) :
    (∃ screen' cause, cause ≠ Fault.selection
        ∧ redrawWithin stops limit screen goalText root
          = (screen', .error cause))
      ∨ redrawWithin stops limit screen goalText root
        = ((redraw screen goalText root).1,
            .ok (redraw screen goalText root).2) := by
  unfold redrawWithin
  dsimp only
  split
  next cause _ => exact Or.inl ⟨_, .room cause, nofun, rfl⟩
  next found _ _ => exact Or.inl ⟨_, .proof found, nofun, rfl⟩
  next => exact Or.inr rfl

/-- The first screen, with a tree of the goal or with none. -/
theorem steady_first (lines cols : Int) {goalText : String}
    {root : Option (ProofTree Atom)}
    (hderived : ∀ r, root = some r → Derived limit goalText r) :
    Steady limit
      ((redraw (Screen.start lines cols) goalText root).1.say help)
      ⟨goalText, root, (redraw (Screen.start lines cols) goalText root).2,
        .command⟩ := by
  have hquiet : ¬ Announces (Screen.start lines cols).message :=
    fun h => h.1 rfl
  have hdrawn := steady_resume (s := ⟨goalText, root, [], .command⟩)
    hderived hquiet
  have hsay : Screen.Frame
      (redraw (Screen.start lines cols) goalText root).1
      ((redraw (Screen.start lines cols) goalText root).1.say help) :=
    Screen.frame_say _ (by decide)
  exact hdrawn.enter hsay (hdrawn.not_announces nofun ∘ hsay.quiet) nofun

/-- The program starts sound: with a goal that is read and drawn, with a
question for one, or with a fault. -/
theorem sound_start (limit : Nat) (lines cols : Int) (goalText : String) :
    Sound limit (start limit lines cols goalText) := by
  unfold start
  dsimp only
  cases hread : Goal.read limit goalText with
  | ok goal =>
      dsimp only
      have hderived : ∀ r, some (ProofTree.ofGoal goal) = some r →
          Derived limit goalText r := by
        intro r hr
        obtain rfl := Option.some.inj hr
        exact ⟨goal, hread, .refl⟩
      rcases redrawWithin_cases Atom.obstacle? limit
        (Screen.start lines cols) goalText (some (.ofGoal goal)) with
        ⟨screen', cause, hcause, h⟩ | h
      · rw [h]
        exact sound_failed _ _ hcause
      · rw [h]
        exact sound_wait (steady_first lines cols hderived) _
  | error e =>
      dsimp only
      split
      next =>
        rcases redrawWithin_cases Atom.obstacle? limit
          (Screen.start lines cols) goalText none with
          ⟨screen', cause, hcause, h⟩ | h
        · rw [h]
          exact sound_failed _ _ hcause
        · rw [h]
          refine sound_wait (steady_first lines cols ?_) _
          intro r hr
          cases hr
      next =>
        refine sound_failed _ _ ?_
        intro hcause
        cases hcause

/-- It does so with any value in the place of the goal. -/
theorem sound_startWith (limit : Nat) (lines cols : Int) (goal : Value) :
    Sound limit (startWith limit lines cols goal) := by
  unfold startWith
  split
  next goalText => exact sound_start limit lines cols goalText
  next =>
    dsimp only
    split
    next => exact sound_failed _ _ nofun
    next => exact sound_failed _ _ nofun
    next => exact sound_failed _ _ nofun

/-- Whatever keys are read, a session that waits is steady. -/
theorem sound_run (limit : Nat) (lines cols : Int) (goal : Value)
    (keys : List Keystroke) :
    Sound limit (run limit lines cols goal keys).1 := by
  refine Turn.run_invariant (Sound limit) ?_
    (sound_startWith limit lines cols goal) keys
  intro screen log s k h
  exact ((outcome_step (h.2 s rfl) k).logging log).sound

variable {lines cols : Int} {goal : Value} {keys : List Keystroke}

/-- What one more key comes to. -/
theorem outcome_run (hwait : (run limit lines cols goal keys).1.next = .wait s)
    (k : Keystroke) :
    Outcome limit (run limit lines cols goal keys).1.screen s k
      (run limit lines cols goal (keys ++ [k])).1 := by
  have hsteady := (sound_run limit lines cols goal keys).2 s hwait
  unfold run at hwait hsteady ⊢
  rw [Turn.run_concat, hwait]
  exact (outcome_step hsteady k).logging _

/-- Once there is a proof there always is one. -/
theorem root_ne_none_run (hroot : s.root ≠ none)
    (hwait : (run limit lines cols goal keys).1.next = .wait s)
    (more : List Keystroke) {s' : Session}
    (hwait' : (run limit lines cols goal (keys ++ more)).1.next = .wait s') :
    s'.root ≠ none := by
  induction more using List.reverseRecOn generalizing s' with
  | nil =>
      rw [List.append_nil, hwait] at hwait'
      injection hwait' with hs
      rwa [← hs]
  | append_singleton more k ih =>
      rw [← List.append_assoc] at hwait'
      obtain ⟨t, hnext⟩ := Turn.exists_wait_of_concat hwait'
      exact (outcome_run hnext k).root_ne_none (ih hnext) hwait'

/-- On every screen, with every goal and after any keys, the program never
looks for a node that is not there; and where it waits for a key,
* the tree is one of the goal, and the paths and the window are the tree's,
  with one of the lines selected;
* a key that asks for a step does it at the node on the selected line;
* a goal that was typed and can be read replaces goal and tree, and no
  other key does;
* once there is a proof there always is one;
* what is announced as proved is proved. -/
theorem run_steady (limit : Nat) (lines cols : Int) (goal : Value)
    (keys : List Keystroke) :
    let turn := (run limit lines cols goal keys).1
    turn.next ≠ .failed .selection
    ∧ ∀ s, turn.next = .wait s →
      (∀ root, s.root = some root →
        (∃ f, Goal.parse limit s.goalText = .ok f
          ∧ root.state = .table ⟨[], f⟩
          ∧ ProofTree.Reaches (.ofGoal f) root)
        ∧ s.paths = root.walk.map (·.1)
        ∧ turn.screen.proof.lines
          = (root.lines ProofTree.defaultIndent).map (·.2)
        ∧ 0 ≤ turn.screen.proof.cursorLine
        ∧ turn.screen.proof.cursorLine < s.paths.length)
      ∧ (∀ k step root, s.asks? turn.screen k = some step →
          s.root = some root →
          ∃ path found accepted root' s',
            s.paths[turn.screen.proof.cursorLine.toNat]? = some path
            ∧ root.get? path = some found
            ∧ turn.screen.proof.lines[turn.screen.proof.cursorLine.toNat]?
              = some (String.ofList
                  (Text.spaces (ProofTree.defaultIndent * path.length))
                  ++ found.text)
            ∧ root.stepAt? path step = some (accepted, root')
            ∧ (run limit lines cols goal (keys ++ [k])).1.next = .wait s'
            ∧ s'.goalText = s.goalText ∧ s'.root = some root')
      ∧ (∀ k f, s.enters? limit turn.screen k = some f →
          ∃ s', (run limit lines cols goal (keys ++ [k])).1.next = .wait s'
            ∧ s'.goalText = turn.screen.editText
            ∧ s'.root = some (.ofGoal f))
      ∧ (∀ k s', s.asks? turn.screen k = none ∨ s.root = none →
          s.enters? limit turn.screen k = none →
          (run limit lines cols goal (keys ++ [k])).1.next = .wait s' →
          s'.goalText = s.goalText ∧ s'.root = s.root)
      ∧ (∀ more s', s.root ≠ none →
          (run limit lines cols goal (keys ++ more)).1.next = .wait s' →
          s'.root ≠ none)
      ∧ (Announces turn.screen.message →
          ∃ root, s.root = some root ∧ root.proved = true) := by
  intro turn
  obtain ⟨hfault, hsteady⟩ := sound_run limit lines cols goal keys
  refine ⟨hfault, fun s hwait => ?_⟩
  have h : Steady limit turn.screen s := hsteady s hwait
  refine ⟨?_, ?_, ?_, ?_, ?_, ?_⟩
  · intro root hroot
    obtain ⟨f, hread, hreach⟩ := h.derived root hroot
    have hdrawn := h.drawn root hroot
    have hparse : Goal.parse limit s.goalText = .ok f :=
      (Goal.read_eq_ok_iff.1 hread).1
    exact ⟨⟨f, hparse, ProofTree.state_of_reaches hreach, hreach⟩,
      hdrawn.paths_eq, hdrawn.lines_eq, hdrawn.nonneg, hdrawn.lt_length⟩
  · intro k step root hasks hroot
    obtain ⟨path, found, hpath, hget, hline⟩ := (h.drawn root hroot).selected
    have hout : Outcome limit turn.screen s k _ := outcome_run hwait k
    obtain ⟨accepted, root', s', hstep, hwait', htext, hroot'⟩ :=
      hout.of_asks hasks hroot hpath
    exact ⟨path, found, accepted, root', s', hpath, hget, hline, hstep,
      hwait', htext, hroot'⟩
  · intro k f henters
    have hout : Outcome limit turn.screen s k _ := outcome_run hwait k
    exact hout.of_enters henters
  · intro k s' hasks henters hwait'
    have hout : Outcome limit turn.screen s k _ := outcome_run hwait k
    exact hout.of_none hasks henters hwait'
  · intro more s' hroot hwait'
    exact root_ne_none_run hroot hwait more hwait'
  · intro hannounces
    exact (h.announced hannounces).2.2

/-- The keys of a proof of the identity: introduce the implication, go to
the line below, and assume hypothesis 0 there. -/
def concluding : List Keystroke :=
  [.char 'i', .down, .char 'h', .char '0', .enter]

/-- The program before those keys. -/
def opened : Turn :=
  ⟨(redraw (Screen.start 8 40) Goal.identity.text
      (some (.ofGoal Goal.identity))).1.say help,
    Goal.scanLog (.ofText Goal.identity.text) (.ok Goal.identity)
      ++ Goal.parseLog (.ofText Goal.identity.text) (.ok Goal.identity),
    .wait ⟨Goal.identity.text, some (.ofGoal Goal.identity), [[]], .command⟩⟩

/-- With the identity for its goal the program starts by showing it. -/
theorem startWith_identity :
    startWith 5 8 40 (.text Goal.identity.text) = opened := by
  have hroom : ((Screen.start 8 40).showGoal
      Goal.identity.text).goal.refreshError? = none := by decide
  have hdepth : (some (ProofTree.ofGoal Goal.identity)).bind
      (ProofTree.obstacle? Atom.obstacle? 5) = none := by decide
  simp only [startWith, start, redrawWithin, Goal.readLog, Source.ofText,
    Goal.read_identity, hroom, hdepth]
  rfl

/-- After those keys the program announces that all goals are proved, and
they are. -/
theorem run_steady_concluding :
    Announces (run 5 8 40 (.text Goal.identity.text)
        concluding).1.screen.message
      ∧ ∃ s root, (run 5 8 40 (.text Goal.identity.text) concluding).1.next
            = .wait s
          ∧ s.root = some root ∧ root.proved = true := by
  have hannounces : Announces (run 5 8 40 (.text Goal.identity.text)
      concluding).1.screen.message := by
    unfold run Announces
    rw [startWith_identity]
    decide +kernel
  have hnext : (run 5 8 40 (.text Goal.identity.text)
      concluding).1.next.isWait = true := by
    unfold run
    rw [startWith_identity]
    decide +kernel
  obtain ⟨-, hwaits⟩ := run_steady 5 8 40 (.text Goal.identity.text) concluding
  cases hwait : (run 5 8 40 (.text Goal.identity.text) concluding).1.next with
  | wait s =>
      obtain ⟨-, -, -, -, -, hproved⟩ := hwaits s hwait
      obtain ⟨root, hroot, hproved⟩ := hproved hannounces
      exact ⟨hannounces, s, root, rfl, hroot, hproved⟩
  | done result => rw [hwait] at hnext; cases hnext
  | failed cause => rw [hwait] at hnext; cases hnext

end Session

end Deduction.Console
