/-
What a key does to the console program.

A session keeps four things in step: the goal, the proof tree, the paths
of the lines, and the proof window with its selection. `Steady` says that
they are, in every phase.

What a key can come to is said once, by `Outcome`. It may act on the tree
(`asks?`), and then on the node whose line is selected; it may bring a new
goal (`enters?`); any other key leaves goal and tree alone, whatever else
it does. All of it keeps the session steady, and a selected line without a
node is never met (`outcome_step`).
-/
import Deduction.Console.Session
import Deduction.Proofs.Prompts
import Deduction.Proofs.Run

namespace Deduction.Console.Session

-- ============================================================ drawn trees

/-- The window shows the tree, line by line, and one of its lines is
selected. -/
structure Drawn (pad : Pad) (root : ProofTree Atom) (paths : List Path) :
    Prop where
  paths_eq : paths = root.walk.map (·.1)
  lines_eq : pad.lines = (root.lines ProofTree.defaultIndent).map (·.2)
  nonneg : 0 ≤ pad.cursorLine
  lt_length : pad.cursorLine < paths.length

/-- The selected line is that of a node, and its path leads there. -/
theorem Drawn.selected {pad : Pad} {root : ProofTree Atom}
    {paths : List Path} (h : Drawn pad root paths) :
    ∃ path found, paths[pad.cursorLine.toNat]? = some path
      ∧ root.get? path = some found
      ∧ pad.lines[pad.cursorLine.toNat]?
        = some (String.ofList
            (Text.spaces (ProofTree.defaultIndent * path.length))
            ++ found.text) := by
  have hlt : pad.cursorLine.toNat < root.walk.length := by
    have := h.nonneg
    have := h.lt_length
    rw [h.paths_eq, List.length_map] at this
    omega
  obtain ⟨⟨path, found⟩, hget⟩ :
      ∃ entry, root.walk[pad.cursorLine.toNat]? = some entry :=
    ⟨_, List.getElem?_eq_getElem hlt⟩
  refine ⟨path, found, ?_, ?_, ?_⟩
  · rw [h.paths_eq, List.getElem?_map, hget]
    rfl
  · exact ProofTree.mem_walk.1 (List.mem_of_getElem? hget)
  · rw [h.lines_eq, List.getElem?_map, ProofTree.lines, List.getElem?_map, hget]
    rfl

/-- Scrolling does not change the selection. -/
theorem cursorLine_adjust (p : Pad) : p.adjust.cursorLine = p.cursorLine := by
  unfold Pad.adjust
  split
  next => rfl
  next => split <;> rfl

theorem lines_adjust (p : Pad) : p.adjust.lines = p.lines := by
  unfold Pad.adjust
  split
  next => rfl
  next => split <;> rfl

/-- The selection stays on its line, as far as there are lines. -/
theorem cursorLine_redraw (screen : Screen) (goalText : String)
    (root : ProofTree Atom) :
    (redraw screen goalText (some root)).1.proof.cursorLine
      = max 0 (min screen.proof.cursorLine ((root.walk.length : Int) - 1)) := by
  show (Pad.setLines _ _).cursorLine = _
  unfold Pad.setLines
  rw [cursorLine_adjust]
  simp only [ProofTree.lines, List.length_map]
  rfl

/-- Drawing a tree shows it, whatever was shown and selected before. -/
theorem drawn_redraw (screen : Screen) (goalText : String)
    (root : ProofTree Atom) :
    Drawn (redraw screen goalText (some root)).1.proof root
      (redraw screen goalText (some root)).2 := by
  have hpaths : (redraw screen goalText (some root)).2
      = root.walk.map (·.1) := by
    simp only [redraw, ProofTree.lines, List.map_map]
    rfl
  have hpos : 0 < root.walk.length :=
    List.length_pos_of_mem (ProofTree.mem_walk.2 (ProofTree.get?_nil root))
  have hcursor := cursorLine_redraw screen goalText root
  constructor
  · exact hpaths
  · exact lines_adjust _
  · omega
  · rw [hpaths, List.length_map]
    omega

/-- Drawing goal and proof announces nothing. -/
theorem quiet_redraw (screen : Screen) (goalText : String)
    (root : Option (ProofTree Atom)) :
    Announces (redraw screen goalText root).1.message →
      Announces screen.message := by
  have hshow (lines : List String) :
      Announces ((screen.showGoal goalText).showProof lines).message →
        Announces screen.message := fun h =>
    screen.quiet_draw (quiet_refresh (screen.goal.setLines [goalText]))
      (Screen.quiet_draw (screen.showGoal goalText)
        (quiet_refresh (screen.proof.setLines lines)) h)
  cases root with
  | none => exact hshow _
  | some root => exact hshow _

-- ============================================================ invariants

/-- The tree belongs to the goal. -/
def Derived (limit : Nat) (goalText : String) (root : ProofTree Atom) :
    Prop :=
  ∃ goal, Goal.read limit goalText = .ok goal
    ∧ ProofTree.Reaches (.ofGoal goal) root

/-- Goal, tree, paths, window and phase fit together. -/
structure Steady (limit : Nat) (screen : Screen) (s : Session) : Prop where
  derived (root : ProofTree Atom) : s.root = some root →
    Derived limit s.goalText root
  drawn (root : ProofTree Atom) : s.root = some root →
    Drawn screen.proof root s.paths
  /-- While a number is asked for, the rule is to act on the selected
  node. -/
  asking (rule : HypothesisRule) (path : Path) (p : NumberPrompt) :
    s.phase = .number rule path p → s.root.isSome = true
      ∧ s.paths[screen.proof.cursorLine.toNat]? = some path
  /-- The announcement stands over a finished proof, until ENTER. -/
  announced : Announces screen.message →
    screen.status.clearError? = none ∧ s.phase = .notice true
      ∧ ∃ root, s.root = some root ∧ root.proved = true

variable {limit : Nat} {screen screen' : Screen} {s : Session}

theorem Steady.not_announces (h : Steady limit screen s)
    (hphase : s.phase ≠ .notice true) : ¬ Announces screen.message :=
  fun hannounces => hphase (h.announced hannounces).2.1

/-- A session stays steady if only the phase changes and nothing is drawn
but in the status bar. -/
theorem Steady.enter (h : Steady limit screen s)
    (hframe : Screen.Frame screen screen')
    (hquiet : ¬ Announces screen'.message) {phase : Phase}
    (hphase : ∀ rule path p, phase = .number rule path p →
      s.root.isSome = true
        ∧ s.paths[screen.proof.cursorLine.toNat]? = some path) :
    Steady limit screen' { s with phase } where
  derived := h.derived
  drawn root hroot := by
    rw [hframe.proof]
    exact h.drawn root hroot
  asking rule path p hp := by
    rw [hframe.proof]
    exact hphase rule path p hp
  announced hannounces := absurd hannounces hquiet

/-- Drawing everything makes a session steady. -/
theorem steady_resume (hderived : ∀ root, s.root = some root →
      Derived limit s.goalText root)
    (hquiet : ¬ Announces screen.message) :
    Steady limit (redraw screen s.goalText s.root).1
      { s with
        paths := (redraw screen s.goalText s.root).2
        phase := .command } where
  derived := hderived
  drawn root hroot := by
    dsimp only at hroot
    rw [hroot]
    exact drawn_redraw screen s.goalText root
  asking _ _ _ hp := nomatch hp
  announced hannounces :=
    absurd (quiet_redraw screen s.goalText s.root hannounces) hquiet

-- ================================================================= keys

/-- The step that a key asks for in a session: a rule or a step back, or
a rule whose number is now complete. -/
def asks? (screen : Screen) (s : Session) (k : Keystroke) : Option Step :=
  match s.phase with
  | .command =>
    match Command.ofKey k with
    | .goalRule rule => some (.apply rule)
    | .undo => some .undo
    | _ => none
  | .number rule _ p =>
    (p.given? screen k).map fun n => .apply (rule.withIndex (.int n))
  | _ => none

/-- The goal that a key gives. -/
def enters? (limit : Nat) (screen : Screen) (s : Session) (k : Keystroke) :
    Option Goal :=
  match s.phase with
  | .goal p => p.given? limit screen k
  | _ => none

/-- What a key can come to. -/
inductive Outcome (limit : Nat) (screen : Screen) (s : Session)
    (k : Keystroke) : Turn → Prop where
  /-- A step at the node on the selected line, accepted or refused. -/
  | acted {screen' : Screen} {log : List Log.Record} {s' : Session}
      {step : Step} {path : Path} {accepted : Bool}
      {root root' : ProofTree Atom} :
      s.asks? screen k = some step → s.root = some root →
      s.paths[screen.proof.cursorLine.toNat]? = some path →
      root.stepAt? path step = some (accepted, root') →
      s'.goalText = s.goalText → s'.root = some root' →
      Steady limit screen' s' →
      Outcome limit screen s k ⟨screen', log, .wait s'⟩
  | entered {screen' : Screen} {log : List Log.Record} {s' : Session}
      {goal : Goal} :
      s.enters? limit screen k = some goal →
      s'.goalText = screen.editText → s'.root = some (.ofGoal goal) →
      Steady limit screen' s' →
      Outcome limit screen s k ⟨screen', log, .wait s'⟩
  | kept {screen' : Screen} {log : List Log.Record} {s' : Session} :
      s.asks? screen k = none ∨ s.root = none →
      s.enters? limit screen k = none →
      s'.goalText = s.goalText → s'.root = s.root →
      Steady limit screen' s' →
      Outcome limit screen s k ⟨screen', log, .wait s'⟩
  | left {screen' : Screen} {log : List Log.Record} :
      s.asks? screen k = none → s.enters? limit screen k = none →
      Outcome limit screen s k ⟨screen', log, .done ()⟩
  | failed {screen' : Screen} {log : List Log.Record} {cause : Fault} :
      cause ≠ .selection →
      s.asks? screen k = none → s.enters? limit screen k = none →
      Outcome limit screen s k ⟨screen', log, .failed cause⟩

variable {k : Keystroke}

/-- Records do not matter to what a key comes to. -/
theorem Outcome.logging {turn : Turn} (h : Outcome limit screen s k turn)
    (records : List Log.Record) :
    Outcome limit screen s k (turn.logging records) := by
  cases h with
  | acted hasks hroot hpath hstep htext hroot' hs' =>
      exact .acted hasks hroot hpath hstep htext hroot' hs'
  | entered henters htext hroot hs' => exact .entered henters htext hroot hs'
  | kept hasks henters htext hroot hs' =>
      exact .kept hasks henters htext hroot hs'
  | left hasks henters => exact .left hasks henters
  | failed hcause hasks henters => exact .failed hcause hasks henters

/-- A key that gives a goal asks for no step. -/
theorem asks?_eq_none_of_enters {f : Goal}
    (h : s.enters? limit screen k = some f) : s.asks? screen k = none := by
  unfold enters? at h
  unfold asks?
  cases hphase : s.phase with
  | goal p => rfl
  | leaving => rfl
  | notice redraws => rfl
  | command => rw [hphase] at h; cases h
  | number rule path p => rw [hphase] at h; cases h

/-- If a key asks for a step and a node is selected, the step is made there,
accepted or refused; the goal stays, and the session goes on. -/
theorem Outcome.of_asks {turn : Turn} (h : Outcome limit screen s k turn)
    {step : Step} {path : Path} {root : ProofTree Atom}
    (hasks : s.asks? screen k = some step) (hroot : s.root = some root)
    (hpath : s.paths[screen.proof.cursorLine.toNat]? = some path) :
    ∃ accepted root' s', root.stepAt? path step = some (accepted, root')
      ∧ turn.next = .wait s' ∧ s'.goalText = s.goalText
      ∧ s'.root = some root' := by
  cases h with
  | @acted _ _ s' step' path' accepted r root' hasks' hr hp hstep htext hroot' =>
      rw [hasks] at hasks'
      rw [hroot] at hr
      rw [hpath] at hp
      obtain rfl := Option.some.inj hasks'
      obtain rfl := Option.some.inj hr
      obtain rfl := Option.some.inj hp
      exact ⟨accepted, root', s', hstep, rfl, htext, hroot'⟩
  | entered henters =>
      rw [asks?_eq_none_of_enters henters] at hasks
      cases hasks
  | kept hnone =>
      rcases hnone with hnone | hnone
      · rw [hasks] at hnone; cases hnone
      · rw [hroot] at hnone; cases hnone
  | left hnone => rw [hasks] at hnone; cases hnone
  | failed _ hnone => rw [hasks] at hnone; cases hnone

/-- If a key gives a goal, the session goes on with the proof of it
begun. -/
theorem Outcome.of_enters {turn : Turn} (h : Outcome limit screen s k turn)
    {f : Goal} (henters : s.enters? limit screen k = some f) :
    ∃ s', turn.next = .wait s' ∧ s'.goalText = screen.editText
      ∧ s'.root = some (.ofGoal f) := by
  cases h with
  | acted hasks =>
      rw [asks?_eq_none_of_enters henters] at hasks
      cases hasks
  | @entered _ _ s' goal henters' htext hroot =>
      rw [henters] at henters'
      obtain rfl := Option.some.inj henters'
      exact ⟨s', rfl, htext, hroot⟩
  | kept _ hnone => rw [henters] at hnone; cases hnone
  | left _ hnone => rw [henters] at hnone; cases hnone
  | failed _ _ hnone => rw [henters] at hnone; cases hnone

/-- If a key asks for nothing, or there is nothing to do it to, the session
goes on with the same goal and the same proof, if it goes on. -/
theorem Outcome.of_none {turn : Turn} (h : Outcome limit screen s k turn)
    (hasks : s.asks? screen k = none ∨ s.root = none)
    (henters : s.enters? limit screen k = none) {s' : Session}
    (hwait : turn.next = .wait s') :
    s'.goalText = s.goalText ∧ s'.root = s.root := by
  cases h with
  | acted hasks' hroot =>
      rcases hasks with hasks | hnone
      · rw [hasks] at hasks'; cases hasks'
      · rw [hroot] at hnone; cases hnone
  | entered henters' => rw [henters] at henters'; cases henters'
  | kept _ _ htext hroot =>
      injection hwait with hs
      rw [← hs]
      exact ⟨htext, hroot⟩
  | left => cases hwait
  | failed => cases hwait

/-- A proof, once there is one, is never lost. -/
theorem Outcome.root_ne_none {turn : Turn} (h : Outcome limit screen s k turn)
    (hroot : s.root ≠ none) {s' : Session} (hwait : turn.next = .wait s') :
    s'.root ≠ none := by
  cases h with
  | acted _ _ _ _ _ hroot' =>
      injection hwait with hs
      rw [← hs, hroot']
      nofun
  | entered _ _ hroot' =>
      injection hwait with hs
      rw [← hs, hroot']
      nofun
  | kept _ _ _ hroot' =>
      injection hwait with hs
      rwa [← hs, hroot']
  | left => cases hwait
  | failed => cases hwait

-- ====================================================== acting on a node

/-- A message is drawn only where the status bar can be cleared. -/
theorem clearError?_of_announces_say {text : String}
    (h : Announces (screen.say text).message)
    (hquiet : ¬ Announces screen.message) :
    (screen.say text).status.clearError? = none := by
  unfold Screen.say at h ⊢
  split at h
  next => exact absurd h hquiet
  next hclear =>
    rw [if_neg hclear]
    exact Option.not_isSome_iff_eq_none.1 hclear

/-- A finished proof is drawn, and announced. -/
theorem steady_announce {root : ProofTree Atom}
    (hderived : Derived limit s.goalText root) (hproved : root.proved = true)
    (hquiet : ¬ Announces screen.message) :
    Steady limit
      ((redraw screen s.goalText (some root)).1.ask "All goals proved!")
      { s with
        root := some root
        paths := (redraw screen s.goalText (some root)).2
        phase := .notice true } where
  derived root' hroot' := by
    obtain rfl := Option.some.inj hroot'
    exact hderived
  drawn root' hroot' := by
    obtain rfl := Option.some.inj hroot'
    rw [Screen.ask, Screen.proof_say]
    exact drawn_redraw screen s.goalText root
  asking _ _ _ hp := nomatch hp
  announced hannounces := by
    have hdrawn :
        ¬ Announces (redraw screen s.goalText (some root)).1.message :=
      hquiet ∘ quiet_redraw screen s.goalText (some root)
    exact ⟨clearError?_of_announces_say hannounces hdrawn, rfl, root, rfl,
      hproved⟩

/-- A step at the selected node, after which everything is drawn. -/
theorem acted_resume (t : Session) (hquiet : ¬ Announces screen'.message)
    {step : Step} {path : Path} {accepted : Bool}
    {root root' : ProofTree Atom}
    (hasks : s.asks? screen k = some step) (hroot : s.root = some root)
    (hpath : s.paths[screen.proof.cursorLine.toNat]? = some path)
    (hstep : root.stepAt? path step = some (accepted, root'))
    (htext : t.goalText = s.goalText) (hroot' : t.root = some root')
    (hderived : Derived limit s.goalText root') :
    Outcome limit screen s k (resume screen' t) := by
  refine .acted hasks hroot hpath hstep htext hroot'
    (steady_resume (s := t) ?_ hquiet)
  intro r hr
  rw [hroot'] at hr
  obtain rfl := Option.some.inj hr
  rw [htext]
  exact hderived

/-- A rule at the selected node comes to a step there. If it is accepted and
finishes the proof that is announced; if it is refused there is a notice;
and else everything is drawn anew. -/
theorem outcome_applyRule (h : Steady limit screen s)
    (hframe : Screen.Frame screen screen')
    (hquiet : ¬ Announces screen'.message)
    {rule : Rule} {path : Path} {root found : ProofTree Atom}
    (hasks : s.asks? screen k = some (.apply rule)) (hroot : s.root = some root)
    (hpath : s.paths[screen.proof.cursorLine.toNat]? = some path)
    (hget : root.get? path = some found) :
    Outcome limit screen s k (applyRule screen' s path root found rule) := by
  unfold applyRule
  cases haccept : found.accept? rule with
  | some new =>
      have hstep : root.stepAt? path (.apply rule)
          = some (true, root.replace path new) :=
        ProofTree.stepAt?_accepted.2 ⟨found, new, hget, haccept, rfl⟩
      have hderived : Derived limit s.goalText (root.replace path new) := by
        obtain ⟨goal, hread, hreach⟩ := h.derived root hroot
        exact ⟨goal, hread, hreach.step hstep⟩
      dsimp only
      split
      next hproved =>
        refine Outcome.logging ?_ _
        exact .acted hasks hroot hpath hstep rfl rfl
          (steady_announce hderived hproved hquiet)
      next =>
        refine Outcome.logging ?_ _
        exact acted_resume _ hquiet hasks hroot hpath hstep rfl rfl hderived
  | none =>
      have hstep : root.stepAt? path (.apply rule) = some (false, root) :=
        ProofTree.stepAt?_of_none hget haccept
      have hask : Screen.Frame screen'
          (screen'.ask ("Rule " ++ rule.text ++ " does not apply.")) := by
        refine Screen.frame_ask screen' ?_
        rw [String.append_assoc, head?_toList_append (c := 'R') rfl]
        decide
      refine Outcome.logging ?_ _
      exact .acted hasks hroot hpath hstep rfl hroot
        (h.enter (hframe.trans hask) (hquiet ∘ hask.quiet) nofun)

/-- Taking back a step at the selected node comes to that step, also where
there was nothing to take back. -/
theorem outcome_undo (h : Steady limit screen s)
    (hquiet : ¬ Announces screen'.message)
    {path : Path} {root found : ProofTree Atom}
    (hasks : s.asks? screen k = some .undo) (hroot : s.root = some root)
    (hpath : s.paths[screen.proof.cursorLine.toNat]? = some path)
    (hget : root.get? path = some found) :
    Outcome limit screen s k (undo screen' s path root found) := by
  have hderived := h.derived root hroot
  unfold undo
  cases hundo : found.undo? with
  | some new =>
      have hstep : root.stepAt? path .undo
          = some (true, root.replace path new) :=
        ProofTree.stepAt?_accepted.2 ⟨found, new, hget, hundo, rfl⟩
      obtain ⟨goal, hread, hreach⟩ := hderived
      refine Outcome.logging ?_ _
      exact acted_resume _ hquiet hasks hroot hpath hstep rfl rfl
        ⟨goal, hread, hreach.step hstep⟩
  | none =>
      have hstep : root.stepAt? path .undo = some (false, root) :=
        ProofTree.stepAt?_of_none hget hundo
      exact acted_resume s hquiet hasks hroot hpath hstep rfl hroot hderived

-- ======================================================== keeping the tree

/-- Going over to another phase comes to nothing. -/
theorem outcome_enter (h : Steady limit screen s)
    (hasks : s.asks? screen k = none ∨ s.root = none)
    (henters : s.enters? limit screen k = none)
    (hframe : Screen.Frame screen screen')
    (hquiet : ¬ Announces screen'.message)
    {phase : Phase}
    (hphase : ∀ rule path p, phase = .number rule path p →
      s.root.isSome = true
        ∧ s.paths[screen.proof.cursorLine.toNat]? = some path) :
    Outcome limit screen s k (.wait screen' { s with phase }) :=
  .kept hasks henters rfl rfl (h.enter hframe hquiet hphase)

/-- Going back to commands with everything drawn anew comes to nothing. -/
theorem outcome_resume (h : Steady limit screen s)
    (hasks : s.asks? screen k = none ∨ s.root = none)
    (henters : s.enters? limit screen k = none)
    (hquiet : ¬ Announces screen'.message) :
    Outcome limit screen s k (resume screen' s) :=
  .kept hasks henters rfl rfl (steady_resume h.derived hquiet)

/-- A question for a goal that is not answered comes to nothing. -/
theorem outcome_afterGoal (h : Steady limit screen s)
    (hquiet : ¬ Announces screen.message)
    (hasks : s.asks? screen k = none)
    (henters : s.enters? limit screen k = none)
    (hframe : Screen.Frame screen screen')
    {turn : Console.Turn GoalPrompt GoalPrompt.Answer}
    (hturn : turn.Unanswered (·.1 = none) screen') :
    Outcome limit screen s k (afterGoal s turn) := by
  refine Outcome.logging ?_ _
  cases hturn with
  | wait hf =>
      have hall := hframe.trans hf
      exact outcome_enter h (Or.inl hasks) henters hall (hquiet ∘ hall.quiet)
        nofun
  | @done screen'' log result hf hnone =>
      obtain ⟨goal?, text⟩ := result
      subst hnone
      exact outcome_resume h (Or.inl hasks) henters
        (hquiet ∘ (hframe.trans hf).quiet)
  | failed hf hcause => exact .failed hcause hasks henters

/-- A question for a number that is not answered comes to nothing. While it
goes on, the rule still waits for the selected node. -/
theorem outcome_afterNumber (h : Steady limit screen s)
    (hquiet : ¬ Announces screen.message)
    (hasks : s.asks? screen k = none)
    (henters : s.enters? limit screen k = none)
    (hframe : Screen.Frame screen screen') {rule : HypothesisRule} {path : Path}
    (hroot : s.root.isSome = true)
    (hpath : s.paths[screen.proof.cursorLine.toNat]? = some path)
    {turn : Console.Turn NumberPrompt (Option Int)}
    (hturn : turn.Unanswered (· = none) screen') :
    Outcome limit screen s k (afterNumber s rule path turn) := by
  refine Outcome.logging ?_ _
  cases hturn with
  | wait hf =>
      have hall := hframe.trans hf
      refine outcome_enter h (Or.inl hasks) henters hall
        (hquiet ∘ hall.quiet) ?_
      rintro _ _ _ ⟨⟩
      exact ⟨hroot, hpath⟩
  | done hf hnone =>
      subst hnone
      have hall := hframe.trans hf
      exact outcome_enter h (Or.inl hasks) henters hall (hquiet ∘ hall.quiet)
        nofun
  | failed hf hcause => exact .failed hcause hasks henters

-- ============================================================== each phase

/-- The node on the selected line, with its path; nothing if there is no
proof. -/
inductive Selects (screen : Screen) (s : Session) :
    Option (Path × ProofTree Atom × ProofTree Atom) → Prop where
  | nothing : s.root = none → Selects screen s none
  | node {path : Path} {root found : ProofTree Atom} : s.root = some root →
      s.paths[screen.proof.cursorLine.toNat]? = some path →
      root.get? path = some found →
      Selects screen s (some (path, root, found))

/-- In a steady session the selection is a node of the proof, or there is no
proof. -/
theorem Steady.selects (h : Steady limit screen s) :
    ∃ node?, s.selected screen = .ok node? ∧ Selects screen s node? := by
  cases hroot : s.root with
  | none =>
      refine ⟨none, ?_, .nothing hroot⟩
      simp only [Session.selected, hroot]
  | some root =>
      obtain ⟨path, found, hpath, hget, -⟩ := (h.drawn root hroot).selected
      refine ⟨some (path, root, found), ?_, .node hroot hpath hget⟩
      simp only [Session.selected, hroot, hpath, hget]

/-- What a command comes to, command by command: a rule or a step back acts
on the selected node, if there is one; a rule with a number has the number
asked for first; and all others come to nothing. -/
theorem outcome_obey (h : Steady limit screen s) (hphase : s.phase = .command)
    {node? : Option (Path × ProofTree Atom × ProofTree Atom)}
    (hnode : Selects screen s node?) :
    Outcome limit screen s k
      (obey limit (screen.press k) s node? (Command.ofKey k)) := by
  have hpress := screen.frame_press k
  have hquiet : ¬ Announces screen.message :=
    h.not_announces (by rw [hphase]; nofun)
  have hpressed : ¬ Announces (screen.press k).message :=
    hquiet ∘ hpress.quiet
  have henters : s.enters? limit screen k = none := by
    simp only [enters?, hphase]
  have hasks : s.asks? screen k = match Command.ofKey k with
      | .goalRule rule => some (.apply rule)
      | .undo => some .undo
      | _ => none := by
    simp only [asks?, hphase]
  have hnotify (text : String) (htext : text.toList.head? ≠ some 'A')
      (hkeeps : s.asks? screen k = none ∨ s.root = none) :
      Outcome limit screen s k (notify (screen.press k) s text false) := by
    have hall := hpress.trans (Screen.frame_ask _ htext)
    exact outcome_enter h hkeeps henters hall (hquiet ∘ hall.quiet) nofun
  cases hcommand : Command.ofKey k with
  | goalRule rule =>
      rw [hcommand] at hasks
      cases hnode with
      | nothing hroot => exact hnotify "No goal." (by decide) (Or.inr hroot)
      | node hroot hpath hget =>
          exact outcome_applyRule h hpress hpressed hasks hroot hpath hget
  | undo =>
      rw [hcommand] at hasks
      cases hnode with
      | nothing hroot =>
          exact outcome_resume h (Or.inr hroot) henters hpressed
      | node hroot hpath hget =>
          exact outcome_undo h hpressed hasks hroot hpath hget
  | hypothesisRule rule =>
      rw [hcommand] at hasks
      cases hnode with
      | nothing hroot => exact hnotify "No goal." (by decide) (Or.inr hroot)
      | node hroot hpath hget =>
          dsimp only [obey]
          split
          next => exact hnotify "No hypotheses." (by decide) (Or.inl hasks)
          next =>
            exact outcome_afterNumber h hquiet hasks henters hpress
              (by rw [hroot]; rfl) hpath (NumberPrompt.unanswered_begin _ _)
  | quit =>
      rw [hcommand] at hasks
      have hall : Screen.Frame screen ((screen.press k).say leaveQuestion) :=
        hpress.trans (Screen.frame_say _ (by decide))
      exact outcome_enter h (Or.inl hasks) henters hall (hquiet ∘ hall.quiet)
        nofun
  | edit =>
      rw [hcommand] at hasks
      exact outcome_afterGoal h hquiet hasks henters hpress
        (GoalPrompt.unanswered_begin limit _ _)
  | down | up | other =>
      rw [hcommand] at hasks
      exact outcome_resume h (Or.inl hasks) henters hpressed

/-- What an answer to the question whether to leave comes to. -/
theorem outcome_leaving (h : Steady limit screen s)
    (hphase : s.phase = .leaving) :
    Outcome limit screen s k (step limit (screen.press k) s k) := by
  have hasks : s.asks? screen k = none := by simp only [asks?, hphase]
  have henters : s.enters? limit screen k = none := by
    simp only [enters?, hphase]
  have hall : Screen.Frame screen ((screen.press k).say "") :=
    (screen.frame_press k).trans (Screen.frame_say _ (by decide))
  have hquiet : ¬ Announces screen.message :=
    h.not_announces (by rw [hphase]; nofun)
  unfold step
  rw [hphase]
  dsimp only
  split
  next => exact .left hasks henters
  next => exact outcome_resume h (Or.inl hasks) henters (hquiet ∘ hall.quiet)

/-- A notice waits for ENTER, and only then are commands obeyed again. -/
theorem outcome_notice (h : Steady limit screen s) {redraws : Bool}
    (hphase : s.phase = .notice redraws) :
    Outcome limit screen s k (step limit (screen.press k) s k) := by
  have hasks : s.asks? screen k = none := by simp only [asks?, hphase]
  have henters : s.enters? limit screen k = none := by
    simp only [enters?, hphase]
  have hpress := screen.frame_press k
  -- ENTER takes the announcement away, if there is one
  have hquiet : ¬ Announces ((screen.press k).say "").message :=
    Screen.not_announces_say (by decide) fun hannounces =>
      (h.announced (hpress.quiet hannounces)).1
  unfold step
  rw [hphase]
  dsimp only
  split
  next =>
    cases redraws with
    | true => exact outcome_resume h (Or.inl hasks) henters hquiet
    | false =>
        have hall : Screen.Frame screen ((screen.press k).say "") :=
          hpress.trans (Screen.frame_say _ (by decide))
        exact outcome_enter h (Or.inl hasks) henters hall hquiet nofun
  next =>
    refine .kept (Or.inl hasks) henters rfl rfl ?_
    exact ⟨h.derived, h.drawn, h.asking, fun hannounces =>
      h.announced (hpress.quiet hannounces)⟩

/-- While a goal is asked for, a key gives it or comes to nothing. -/
theorem outcome_goal (h : Steady limit screen s) {p : GoalPrompt}
    (hphase : s.phase = .goal p) :
    Outcome limit screen s k (step limit (screen.press k) s k) := by
  have hasks : s.asks? screen k = none := by simp only [asks?, hphase]
  have henters : s.enters? limit screen k = p.given? limit screen k := by
    simp only [enters?, hphase]
  have hpress := screen.frame_press k
  have hquiet : ¬ Announces screen.message :=
    h.not_announces (by rw [hphase]; nofun)
  unfold step
  rw [hphase]
  dsimp only
  cases hgiven : p.given? limit screen k with
  | none =>
      have hgiven' : p.given? limit (screen.press k) k = none := hgiven
      exact outcome_afterGoal h hquiet hasks (henters.trans hgiven) hpress
        (GoalPrompt.unanswered_step hgiven')
  | some goal =>
      have hgiven' : p.given? limit (screen.press k) k = some goal := hgiven
      obtain ⟨hread, hstep⟩ := GoalPrompt.step_given hgiven'
      have hleave := hpress.trans (LineEdit.frame_leave (screen.press k))
      rw [hstep]
      refine Outcome.logging (Outcome.logging ?_ _) _
      refine .entered (henters.trans hgiven) rfl rfl
        (steady_resume (s := { s with
          goalText := screen.editText, root := some (.ofGoal goal) }) ?_
          (hquiet ∘ hleave.quiet))
      intro root hroot
      obtain rfl := Option.some.inj hroot
      exact ⟨goal, hread, .refl⟩

/-- While a number is asked for, a key gives it, and the rule is applied at
the selected node, or it comes to nothing. -/
theorem outcome_number (h : Steady limit screen s) {rule : HypothesisRule}
    {path : Path} {p : NumberPrompt} (hphase : s.phase = .number rule path p) :
    Outcome limit screen s k (step limit (screen.press k) s k) := by
  have henters : s.enters? limit screen k = none := by
    simp only [enters?, hphase]
  have hpress := screen.frame_press k
  have hquiet : ¬ Announces screen.message :=
    h.not_announces (by rw [hphase]; nofun)
  obtain ⟨hsome, hpath⟩ := h.asking rule path p hphase
  obtain ⟨root, hroot⟩ := Option.isSome_iff_exists.1 hsome
  unfold step
  rw [hphase]
  dsimp only
  cases hgiven : p.given? screen k with
  | none =>
      have hasks : s.asks? screen k = none := by
        simp only [asks?, hphase, hgiven, Option.map_none]
      have hgiven' : p.given? (screen.press k) k = none := hgiven
      exact outcome_afterNumber h hquiet hasks henters hpress hsome hpath
        (NumberPrompt.unanswered_step hgiven')
  | some n =>
      have hasks : s.asks? screen k
          = some (.apply (rule.withIndex (.int n))) := by
        simp only [asks?, hphase, hgiven, Option.map_some]
      have hgiven' : p.given? (screen.press k) k = some n := hgiven
      -- the path on the selected line still leads to a node
      obtain ⟨path', found, hpath', hget, -⟩ := (h.drawn root hroot).selected
      rw [hpath] at hpath'
      obtain rfl := Option.some.inj hpath'
      have hleave := hpress.trans (LineEdit.frame_leave (screen.press k))
      rw [NumberPrompt.step_given hgiven']
      refine Outcome.logging ?_ _
      simp only [Turn.done, hroot, Option.bind_some, hget, Option.map_some]
      exact outcome_applyRule h hleave (hquiet ∘ hleave.quiet) hasks hroot
        hpath hget

/-- What any key comes to in a steady session. -/
theorem outcome_step (h : Steady limit screen s) (k : Keystroke) :
    Outcome limit screen s k (step limit (screen.press k) s k) := by
  cases hphase : s.phase with
  | command =>
      obtain ⟨node?, hselected, hnode⟩ := h.selects
      have hpressed : s.selected (screen.press k) = .ok node? := hselected
      unfold step
      rw [hphase]
      dsimp only
      rw [hpressed]
      exact outcome_obey h hphase hnode
  | leaving => exact outcome_leaving h hphase
  | notice redraws => exact outcome_notice h hphase
  | goal p => exact outcome_goal h hphase
  | number rule path p => exact outcome_number h hphase

end Deduction.Console.Session
