/-
Every step of a proof can be made with keys.

The commands of the console act on the selected line. So to apply a rule
at a node one goes to its line with the arrow keys and presses the key of
the rule; a rule on a hypothesis is followed by the number of that
hypothesis, digit by digit, and ENTER. Where that finishes the proof there
is a message to be answered with ENTER.

`Ready` says that the program is waiting for a command, with some tree.
Each of these keys leads on to a session that is known (`Ready.move`,
`Asking.digit`, `Asking.enter`), and all of them together to one that is
ready again, with the tree after the rule (`Ready.accept`).
-/
import Deduction.Proofs.Digits
import Deduction.Proofs.KeySequences

namespace Deduction

namespace Console

-- ============================================================= the editor

/-- What can be blanked can be drawn. -/
theorem refreshError?_of_clearError? {p : Pad} (h : p.clearError? = none) :
    p.refreshError? = none := by
  have hfill : Text.fillError? (Pad.room p.width p.bordered) = none := by
    unfold Pad.clearError? Text.blankError? at h
    unfold Text.fillError?
    split at h
    next => cases h
    next hfits =>
      rw [if_neg hfits]
      exact h
  unfold Pad.refreshError?
  split
  next => rfl
  next =>
    split
    next => exact hfill
    next => exact h

theorem fits_of_le {n : Nat} (h : n ≤ 10000) :
    Word.fits Word.sizeBits n = true := by
  have hpow : Int.pow 2 (Word.sizeBits - 1) = 9223372036854775808 := by decide
  unfold Word.fits
  rw [hpow, decide_eq_true_iff]
  omega

namespace LineEdit

/-- On a status bar that can be drawn the line editor begins, with the given
text in its cells. -/
theorem begin_wait {screen : Screen}
    (hclear : screen.status.clearError? = none) (text : String)
    (index start : Int) :
    ∃ screen', screen'.status.clearError? = none
      ∧ screen'.cells = text.toList.map ([·])
      ∧ begin screen text index start
        = .wait screen' ⟨index, start, .insert⟩ := by
  refine ⟨(screen.setCells (text.toList.map ([·]))).showStatus
    { (screen.setCells (text.toList.map ([·]))).status with
      cursorChar := index
      scrollChar := max 0 (index - screen.status.width + 2) },
    hclear, rfl, ?_⟩
  unfold begin
  dsimp only
  split
  next cause hroom =>
    have hnone := hroom.symm.trans (refreshError?_of_clearError? hclear)
    cases hnone
  next => rfl

/-- A new cell goes to the end of the text if the cursor is there. -/
theorem type_end {screen : Screen} {i : Int} (hi : i = screen.cells.length)
    (hfits : Word.fits Word.sizeBits i = true) (cell : List Char) :
    ∃ screen', screen'.status.clearError? = screen.status.clearError?
      ∧ screen'.cells = screen.cells ++ [cell]
      ∧ screen.type i .insert cell = .ok screen' := by
  have hclamp : Text.clamp screen.cells.length i = screen.cells.length := by
    unfold Text.clamp
    rw [if_neg (by omega), hi, Int.toNat_natCast, Nat.min_self]
  have hinsert : Text.insertAt screen.cells i cell
      = .ok (screen.cells ++ [cell]) := by
    unfold Text.insertAt
    dsimp only
    rw [if_pos hfits, hclamp, List.take_length, List.drop_length]
  refine ⟨(screen.setCells (screen.cells ++ [cell])).showStatus
    (screen.setCells (screen.cells ++ [cell])).status.cursorRight,
    rfl, rfl, ?_⟩
  unfold Screen.type
  rw [if_neg (by simp), hinsert]
  rfl

/-- A character that is no command is typed, if it can be shown. -/
theorem step_char {c : Char} (hback : .char c ∉ Keystroke.backspaces)
    (hescape : .char c ≠ Keystroke.escape) (henter : .char c ≠ Keystroke.enter)
    (screen : Screen) (e : LineEdit) :
    step screen e (.char c)
      = if Text.isPrintable c then
          match screen.type e.index e.mode [c] with
          | .error cause => .failed screen (.edit cause)
          | .ok screen => .wait screen { e with index := e.index + 1 }
        else .wait screen e := by
  have hright : ¬ Keystroke.char c = .right := nofun
  have hleft : ¬ Keystroke.char c = .left := nofun
  have hdelete : ¬ Keystroke.char c = .delete := nofun
  have hinsert : ¬ Keystroke.char c = .insert := nofun
  unfold step
  rw [if_neg hright, if_neg hleft, if_neg hback, if_neg hdelete,
    if_neg hinsert, if_neg hescape]
  exact if_neg henter

/-- The key of a digit takes it into the text. -/
theorem step_digit {c : Char} (hc : Token.isNumeric c = true)
    {screen screen' : Screen} {e : LineEdit}
    (htype : screen.type e.index e.mode [c] = .ok screen') :
    step screen e (.char c)
      = .wait screen' { e with index := e.index + 1 } := by
  have hne : ∀ d, Token.isNumeric d = false →
      ¬ Keystroke.char c = .char d := by
    intro d hd h
    injection h with h
    rw [h, hd] at hc
    cases hc
  have hback : Keystroke.char c ∉ Keystroke.backspaces := by
    unfold Keystroke.backspaces
    simp only [List.mem_cons, List.not_mem_nil, or_false, not_or]
    exact ⟨nofun, hne _ rfl, hne _ rfl⟩
  rw [step_char hback (hne _ rfl) (hne _ rfl),
    if_pos (Token.typed_of_isNumeric hc).1, htype]

end LineEdit

namespace NumberPrompt

theorem isDigits_iff {cs : List Char} :
    isDigits cs = true ↔ cs ≠ [] ∧ ∀ c ∈ cs, Text.isDigit c = true := by
  unfold isDigits
  rw [Bool.and_eq_true, List.all_eq_true, Bool.not_eq_true',
    List.isEmpty_eq_false_iff]

/-- ENTER behind a prompt and a numeral gives the number. -/
theorem given?_digits {screen : Screen} {prompt : String}
    {digits : List Char}
    (hcells : screen.cells = (prompt.toList ++ digits).map ([·]))
    (hdigits : Token.isDigits digits = true)
    (hlength : digits.length ≤ Numeral.maxDigits) (e : LineEdit) :
    given? screen .enter (.editing prompt.length e)
      = some (Token.numeralValue digits) := by
  obtain ⟨hne, hall⟩ := Token.isDigits_iff.1 hdigits
  have htext : screen.editText = String.ofList (prompt.toList ++ digits) := by
    unfold Screen.editText
    rw [hcells, ← List.flatMap_def, List.flatMap_singleton']
  have hreply : reply prompt.length screen.editText = digits := by
    unfold reply
    rw [htext, String.toList_ofList, List.drop_left' String.length_toList]
    exact Numeral.dropWhile_ends fun c hc =>
      (Token.typed_of_isNumeric (hall c hc)).2.1
  have hisDigits : isDigits digits = true := isDigits_iff.2 ⟨hne, fun c hc =>
    Text.isDigit_of_isDecimal (Token.isDecimal_of_isNumeric (hall c hc))⟩
  unfold given?
  dsimp only
  rw [hreply, if_pos ⟨rfl, hisDigits⟩, Numeral.read_digits hdigits hlength]
  rfl

end NumberPrompt

-- ================================================================= keys

namespace Session

/-- After some keys the program waits for the next one, with this screen
and in this session. -/
def Awaits (limit : Nat) (lines cols : Int) (goalText : String)
    (screen : Screen) (s : Session) : Prop :=
  ∃ keys log, (run limit lines cols (.text goalText) keys).1
    = ⟨screen, log, .wait s⟩

variable {limit : Nat} {lines cols : Int} {goalText : String}
  {screen screen' : Screen} {s s' : Session} {k : Keystroke}
  {u found new : ProofTree Atom} {path : Path} {line : Nat}

/-- A session that waits again after a key has been led there by one key
more. -/
theorem Awaits.press (h : Awaits limit lines cols goalText screen s)
    {log : List Log.Record}
    (hstep : step limit (screen.press k) s k = ⟨screen', log, .wait s'⟩) :
    Awaits limit lines cols goalText screen' s' := by
  obtain ⟨keys, past, hrun⟩ := h
  refine ⟨keys ++ [k], past ++ log, ?_⟩
  unfold run at hrun ⊢
  rw [Turn.run_concat, hrun]
  dsimp only
  rw [hstep]
  rfl

/-- A session that waits for a key is steady. -/
theorem Awaits.steady (h : Awaits limit lines cols goalText screen s) :
    Steady limit screen s := by
  obtain ⟨keys, log, hrun⟩ := h
  have hsound := (sound_run limit lines cols (.text goalText) keys).2 s
  rw [hrun] at hsound
  exact hsound rfl

/-- The program waits for a command. It has this tree, and this line is
selected. -/
def Ready (limit : Nat) (lines cols : Int) (goalText : String)
    (u : ProofTree Atom) (line : Nat) : Prop :=
  ∃ screen s, Awaits limit lines cols goalText screen s
    ∧ s.phase = .command ∧ s.root = some u
    ∧ screen.status.clearError? = none ∧ screen.proof.cursorLine = line

/-- Where everything is drawn, the program is ready. -/
theorem Awaits.resume (h : Awaits limit lines cols goalText screen s)
    {log : List Log.Record} (screen' : Screen) (s' : Session)
    (hstep : step limit (screen.press k) s k
      = ⟨(Session.resume screen' s').screen, log,
          (Session.resume screen' s').next⟩)
    (hroot : s'.root = some u) (hclear : screen'.status.clearError? = none)
    (hline : max 0 (min screen'.proof.cursorLine ((u.walk.length : Int) - 1))
      = line) : Ready limit lines cols goalText u line := by
  have hcursor := cursorLine_redraw screen' s'.goalText u
  refine ⟨_, _, h.press hstep, rfl, hroot, ?_, ?_⟩
  · show (redraw screen' s'.goalText s'.root).1.status.clearError? = none
    rw [hroot]
    exact hclear
  · show (redraw screen' s'.goalText s'.root).1.proof.cursorLine = line
    rw [hroot, hcursor]
    exact hline

/-- A command acts on the node of the selected line. -/
theorem Ready.command (h : Ready limit lines cols goalText u line) :
    line < u.walk.length ∧ ∃ screen s,
      Awaits limit lines cols goalText screen s ∧ s.root = some u
      ∧ screen.status.clearError? = none ∧ screen.proof.cursorLine = line
      ∧ ∀ path found, u.walk[line]? = some (path, found) → ∀ k,
          step limit (screen.press k) s k
            = obey limit (screen.press k) s (some (path, u, found))
                (Command.ofKey k) := by
  obtain ⟨screen, s, hawaits, hphase, hroot, hclear, hline⟩ := h
  have hdrawn := hawaits.steady.drawn u hroot
  have hlt : line < u.walk.length := by
    have := hdrawn.lt_length
    rw [hdrawn.paths_eq, List.length_map, hline] at this
    omega
  refine ⟨hlt, screen, s, hawaits, hroot, hclear, hline, ?_⟩
  intro path found hwalk k
  have hpath : s.paths[screen.proof.cursorLine.toNat]? = some path := by
    rw [hdrawn.paths_eq, List.getElem?_map, hline, Int.toNat_natCast, hwalk]
    rfl
  have hget : u.get? path = some found :=
    ProofTree.mem_walk.1 (List.mem_of_getElem? hwalk)
  have hselected : s.selected (screen.press k)
      = .ok (some (path, u, found)) := by
    have hpress : (screen.press k).proof = screen.proof := rfl
    simp only [selected, hroot, hpress, hpath, hget]
  unfold step
  rw [hphase]
  dsimp only
  rw [hselected]

-- ================================================================ lines

/-- An arrow key changes the selection as it changes the pad. -/
theorem Ready.scroll (h : Ready limit lines cols goalText u line)
    (k : Keystroke) (turn : Pad → Pad)
    (hkey : ∀ screen s node?, obey limit screen s node? (Command.ofKey k)
      = Session.resume { screen with proof := turn screen.proof } s)
    {line' : Nat} (hlt : line' < u.walk.length)
    (hturn : ∀ pad : Pad, pad.lines.length = u.walk.length →
      pad.cursorLine = line → (turn pad).cursorLine = line') :
    Ready limit lines cols goalText u line' := by
  obtain ⟨hline, screen, s, hawaits, hroot, hclear, hcursor, hobey⟩ := h.command
  obtain ⟨⟨path, found⟩, hwalk⟩ : ∃ entry, u.walk[line]? = some entry :=
    ⟨_, List.getElem?_eq_getElem hline⟩
  have hlines : screen.proof.lines.length = u.walk.length := by
    rw [(hawaits.steady.drawn u hroot).lines_eq, ProofTree.lines,
      List.length_map, List.length_map]
  have hstep : step limit (screen.press k) s k
      = Session.resume { screen.press k with proof := turn screen.proof } s :=
    (hobey path found hwalk k).trans (hkey _ _ _)
  refine hawaits.resume _ _ hstep hroot hclear ?_
  show max 0 (min (turn screen.proof).cursorLine _) = _
  rw [hturn screen.proof hlines hcursor]
  omega

/-- DOWN selects the next line, if there is one. -/
theorem Ready.down (h : Ready limit lines cols goalText u line)
    (hlt : line + 1 < u.walk.length) :
    Ready limit lines cols goalText u (line + 1) := by
  refine h.scroll .down Pad.cursorDown (fun _ _ _ => rfl) hlt ?_
  intro pad hlines hcursor
  unfold Pad.cursorDown
  rw [if_pos (by omega), cursorLine_adjust, hcursor]
  rfl

/-- UP selects the line before. -/
theorem Ready.up (h : Ready limit lines cols goalText u (line + 1)) :
    Ready limit lines cols goalText u line := by
  have hlt := h.command.1
  refine h.scroll .up Pad.cursorUp (fun _ _ _ => rfl) (by omega) ?_
  intro pad _ hcursor
  unfold Pad.cursorUp
  rw [if_pos (by omega), cursorLine_adjust, hcursor]
  exact Int.add_sub_cancel line 1

/-- The arrow keys lead to every line: up to the first, then down. -/
theorem Ready.move (h : Ready limit lines cols goalText u line)
    {line' : Nat} (hlt : line' < u.walk.length) :
    Ready limit lines cols goalText u line' := by
  have htop : Ready limit lines cols goalText u 0 := by
    induction line with
    | zero => exact h
    | succ line ih => exact ih h.up
  induction line' with
  | zero => exact htop
  | succ line' ih => exact (ih (by omega)).down hlt

-- ================================================================ rules

theorem status_say (screen : Screen) (text : String) :
    (screen.say text).status = screen.status := by
  unfold Screen.say
  split <;> rfl

theorem toNat_max (x : Int) : max 0 x = (max 0 x).toNat :=
  (Int.toNat_of_nonneg (Int.le_max_left 0 x)).symm

/-- ENTER takes note of a message. -/
theorem Awaits.noticed (h : Awaits limit lines cols goalText screen s)
    (hphase : s.phase = .notice true) (hroot : s.root = some u)
    (hclear : screen.status.clearError? = none) :
    ∃ line, Ready limit lines cols goalText u line := by
  have hstep : step limit (screen.press .enter) s .enter
      = Session.resume ((screen.press .enter).say "") s := by
    unfold step
    rw [hphase]
    rfl
  refine ⟨_, h.resume _ s hstep hroot ?_ (toNat_max _)⟩
  rw [status_say]
  exact hclear

/-- Where a rule has been accepted the program is ready again, at once or
when the end of the proof has been taken note of. -/
theorem Awaits.applied (h : Awaits limit lines cols goalText screen s)
    {rule : Rule} {log : List Log.Record}
    (hstep : step limit (screen.press k) s k
      = ⟨(applyRule screen' s path u found rule).screen, log,
          (applyRule screen' s path u found rule).next⟩)
    (haccept : found.accept? rule = some new)
    (hclear : screen'.status.clearError? = none) :
    ∃ line, Ready limit lines cols goalText (u.replace path new) line := by
  unfold applyRule at hstep
  rw [haccept] at hstep
  dsimp only at hstep
  split at hstep
  next =>
    refine (h.press hstep).noticed rfl rfl ?_
    show (Screen.ask _ _).status.clearError? = none
    rw [Screen.ask, status_say]
    exact hclear
  next =>
    exact ⟨_, h.resume screen' { s with root := some (u.replace path new) }
      hstep rfl hclear (toNat_max _)⟩

/-- The program waits for the number of a hypothesis, of which so much has
been typed behind the prompt. -/
def Asking (limit : Nat) (lines cols : Int) (goalText : String)
    (u : ProofTree Atom) (rule : HypothesisRule) (path : Path)
    (prompt : String) (typed : List Char) : Prop :=
  ∃ screen s e, Awaits limit lines cols goalText screen s
    ∧ s.phase = .number rule path (.editing prompt.length e)
    ∧ s.root = some u ∧ screen.status.clearError? = none
    ∧ screen.cells = (prompt.toList ++ typed).map ([·])
    ∧ e.mode = .insert ∧ e.index = (prompt.length + typed.length : Nat)

variable {rule : HypothesisRule} {prompt : String} {typed : List Char}

/-- The key of a rule on a hypothesis asks for the number, if there are
hypotheses. -/
theorem Ready.ask (h : Ready limit lines cols goalText u line)
    (hwalk : u.walk[line]? = some (path, found))
    (hcount : found.state.hypothesisCount ≠ 0)
    (hkey : Command.ofKey k = .hypothesisRule rule) :
    Asking limit lines cols goalText u rule path
      (numberPrompt rule found.state.hypothesisCount) [] := by
  obtain ⟨-, screen, s, hawaits, hroot, hclear, -, hobey⟩ := h.command
  have hstep := hobey path found hwalk k
  rw [hkey] at hstep
  dsimp only [obey] at hstep
  rw [if_neg hcount] at hstep
  generalize numberPrompt rule found.state.hypothesisCount = prompt at hstep ⊢
  have hpress : (screen.press k).status.clearError? = none := hclear
  obtain ⟨screen', hclear', hcells, hbegin⟩ :=
    LineEdit.begin_wait hpress prompt prompt.length prompt.length
  unfold NumberPrompt.begin at hstep
  dsimp only at hstep
  rw [hbegin] at hstep
  refine ⟨screen', _, _, hawaits.press hstep, rfl, hroot, hclear', ?_, rfl, rfl⟩
  rw [List.append_nil]
  exact hcells

/-- While a number is asked for, a digit goes to the end of what was
typed. -/
theorem Asking.digit
    (h : Asking limit lines cols goalText u rule path prompt typed)
    {c : Char} (hc : Token.isNumeric c = true)
    (hlength : prompt.length + typed.length ≤ 10000) :
    Asking limit lines cols goalText u rule path prompt (typed ++ [c]) := by
  obtain ⟨screen, s, e, hawaits, hphase, hroot, hclear, hcells, hmode,
    hindex⟩ := h
  have hend : e.index = (screen.press (.char c)).cells.length := by
    show e.index = screen.cells.length
    rw [hindex, hcells, List.length_map, List.length_append,
      String.length_toList]
  obtain ⟨screen', hclear', hcells', htype⟩ := LineEdit.type_end hend
    (by rw [hindex]; exact fits_of_le hlength) [c]
  rw [← hmode] at htype
  have hstep : step limit (screen.press (.char c)) s (.char c)
      = .wait screen' { s with
          phase := .number rule path
            (.editing prompt.length { e with index := e.index + 1 }) } := by
    unfold step
    rw [hphase]
    dsimp only
    unfold NumberPrompt.step
    dsimp only
    rw [LineEdit.step_digit hc htype]
    rfl
  refine ⟨screen', _, _, hawaits.press hstep, rfl, hroot,
    hclear'.trans hclear, ?_, hmode, ?_⟩
  · rw [hcells', ← List.append_assoc, List.map_append, ← hcells]
    rfl
  · show e.index + 1 = _
    rw [hindex, List.length_append, List.length_singleton]
    omega

/-- A numeral is typed digit by digit. -/
theorem Asking.digits
    (h : Asking limit lines cols goalText u rule path prompt [])
    {cs : List Char} (hcs : ∀ c ∈ cs, Token.isNumeric c = true)
    (hlength : prompt.length + cs.length ≤ 10000) :
    Asking limit lines cols goalText u rule path prompt cs := by
  induction cs using List.reverseRecOn with
  | nil => exact h
  | append_singleton cs c ih =>
      rw [List.length_append, List.length_singleton] at hlength
      have hbefore := ih (fun d hd => hcs d (List.mem_append_left _ hd))
        (by omega)
      exact hbefore.digit (hcs c (by simp)) (by omega)

/-- ENTER behind the numeral applies the rule. -/
theorem Asking.enter
    (h : Asking limit lines cols goalText u rule path prompt typed)
    (htyped : Token.isDigits typed = true)
    (hlength : typed.length ≤ Numeral.maxDigits)
    (hget : u.get? path = some found)
    (haccept : found.accept?
      (rule.withIndex (.int (Token.numeralValue typed))) = some new) :
    ∃ line, Ready limit lines cols goalText (u.replace path new) line := by
  obtain ⟨screen, s, e, hawaits, hphase, hroot, hclear, hcells, -, -⟩ := h
  have hgiven : NumberPrompt.given? (screen.press .enter) .enter
      (.editing prompt.length e) = some (Token.numeralValue typed) :=
    NumberPrompt.given?_digits hcells htyped hlength e
  have hstep : step limit (screen.press .enter) s .enter
      = (applyRule (LineEdit.leave (screen.press .enter)) s path u found
          (rule.withIndex (.int (Token.numeralValue typed)))).logging [] := by
    unfold step
    rw [hphase]
    dsimp only
    rw [NumberPrompt.step_given hgiven]
    simp only [afterNumber, Turn.done, hroot, Option.bind_some, hget,
      Option.map_some]
  exact hawaits.applied hstep haccept hclear

-- ================================================================ steps

/-- The prompt is short, and stays so when a number has been typed. -/
theorem length_numberPrompt {count : Nat} (hpos : count ≠ 0)
    (hcount : count < Nat.pow 10 Numeral.maxDigits) :
    (numberPrompt rule count).length ≤ 5000 := by
  obtain ⟨n, rfl⟩ := Nat.exists_eq_succ_of_ne_zero hpos
  have hname : rule.name.length ≤ 10 := by
    cases rule <;> decide
  have hdigits :=
    Numeral.length_toDigits_le (by decide) (Nat.lt_of_succ_lt hcount)
  have htext : toString (((n.succ : Nat) : Int) - 1) = toString n := by
    rw [show ((n.succ : Nat) : Int) - 1 = (n : Int) by omega]
    rfl
  have hnumber : (toString n).length = (Nat.toDigits 10 n).length := by
    rw [Nat.toString_eq_ofList_toDigits, String.length_ofList]
  unfold numberPrompt
  rw [htext, String.length_append, String.length_append,
    String.length_append, hnumber]
  have hmax : Numeral.maxDigits = 4300 := rfl
  have hfirst : " hypothesis (0-".length = 15 := by decide
  have hlast : "): ".length = 3 := by decide
  omega

/-- A rule for the goal that is accepted at the selected node leads to the
tree after it. -/
theorem Ready.goalRule {rule : Rule}
    (h : Ready limit lines cols goalText u line)
    (hwalk : u.walk[line]? = some (path, found))
    (hkey : Command.ofKey k = .goalRule rule)
    (haccept : found.accept? rule = some new) :
    ∃ line', Ready limit lines cols goalText (u.replace path new) line' := by
  obtain ⟨-, screen, s, hawaits, -, hclear, -, hobey⟩ := h.command
  have hstep : step limit (screen.press k) s k
      = applyRule (screen.press k) s path u found rule := by
    rw [hobey path found hwalk k, hkey]
    rfl
  exact hawaits.applied hstep haccept hclear

/-- So does a rule for a hypothesis, with its number typed behind the
question. The number has few enough digits to be read. -/
theorem Ready.hypothesisRule
    (h : Ready limit lines cols goalText u line)
    (hwalk : u.walk[line]? = some (path, found))
    (hkey : Command.ofKey k = .hypothesisRule rule)
    (hcount : found.state.hypothesisCount < Nat.pow 10 Numeral.maxDigits)
    {i : Nat} (hi : i < found.state.hypothesisCount)
    (haccept : found.accept? (rule.withIndex (.int i)) = some new) :
    ∃ line', Ready limit lines cols goalText (u.replace path new) line' := by
  have hdigits := Token.isDigits_toDigits i
  have hlength :=
    Numeral.length_toDigits_le (by decide) (Nat.lt_trans hi hcount)
  have hall := (Token.isDigits_iff.1 hdigits).2
  have hprompt : (numberPrompt rule found.state.hypothesisCount).length
      ≤ 5000 := length_numberPrompt (by omega) hcount
  have hmax : Numeral.maxDigits = 4300 := rfl
  have hasking := (h.ask hwalk (by omega) hkey).digits hall (by omega)
  have hget : u.get? path = some found :=
    ProofTree.mem_walk.1 (List.mem_of_getElem? hwalk)
  rw [← Token.numeralValue_toDigits i] at haccept
  exact hasking.enter hdigits hlength hget haccept

/-- Any rule that is accepted at a node can be applied there with keys. -/
theorem Ready.accept {rule : Rule}
    (h : Ready limit lines cols goalText u line)
    (hget : u.get? path = some found)
    (haccept : found.accept? rule = some new)
    (hcount : found.state.hypothesisCount < Nat.pow 10 Numeral.maxDigits) :
    ∃ line', Ready limit lines cols goalText (u.replace path new) line' := by
  obtain ⟨line', hwalk⟩ := List.getElem?_of_mem (ProofTree.mem_walk.2 hget)
  have hready := h.move (List.getElem?_eq_some_iff.1 hwalk).1
  have hstep : found.step? (.apply rule) = some new := haccept
  rcases ProofTree.step?_cases hstep with
    ⟨s, rule', states, hrule, hs, hinf, -⟩ | ⟨hundo, -, -⟩
  · injection hrule with hrule
    subst hrule
    -- the position that the rule carries is one of those asked for
    have hnumber {index : Value} {f : Formula Atom}
        (hf : s.hypothesis? index = some f) :
        ∃ i : Nat, index = .int i ∧ i < found.state.hypothesisCount := by
      rw [hs]
      exact Sequent.position_of_hypothesis? hf
    cases hinf with
    | implIntro => exact hready.goalRule (k := .char 'i') hwalk rfl haccept
    | andIntro => exact hready.goalRule (k := .char 'a') hwalk rfl haccept
    | orIntro1 => exact hready.goalRule (k := .char '1') hwalk rfl haccept
    | orIntro2 => exact hready.goalRule (k := .char '2') hwalk rfl haccept
    | assumption hf =>
        obtain ⟨i, rfl, hi⟩ := hnumber hf
        exact hready.hypothesisRule (k := .char 'h') hwalk rfl hcount hi
          haccept
    | andElim hf =>
        obtain ⟨i, rfl, hi⟩ := hnumber hf
        exact hready.hypothesisRule (k := .char 'l') hwalk rfl hcount hi
          haccept
    | orElim hf =>
        obtain ⟨i, rfl, hi⟩ := hnumber hf
        exact hready.hypothesisRule (k := .char 'o') hwalk rfl hcount hi
          haccept
  · cases hundo

-- ================================================================ start

/-- Nothing keeps a goal that was read from being shown. -/
theorem obstacle?_of_read {f : Goal} (h : Goal.read limit goalText = .ok f) :
    f.obstacle? Atom.obstacle? limit = none := by
  obtain ⟨hparse, hdepth⟩ := Goal.read_eq_ok_iff.1 h
  obtain ⟨-, hshort, -⟩ := Goal.isCanonical_of_parse hparse
  have hstops : (fun a : Atom => a.obstacle?.isNone) = Atom.isShort :=
    funext Atom.isNone_obstacle?
  rw [Formula.obstacle?_eq_none_iff, hstops]
  exact ⟨hdepth, hshort⟩

/-- The program starts ready with a goal that can be read, on a screen
that has room for it. -/
theorem ready_start {goal : Goal}
    (hread : Goal.read limit goalText = .ok goal) :
    Ready limit 8 40 goalText (.ofGoal goal) 0 := by
  have hroom : ((Screen.start 8 40).showGoal goalText).goal.refreshError?
      = none := rfl
  have hgoal : (State.ofGoal goal).obstacle? Atom.obstacle? limit = none := by
    show [goal].findSome? _ = none
    rw [List.findSome?_cons, obstacle?_of_read hread]
    rfl
  have hdepth : (some (ProofTree.ofGoal goal)).bind
      (ProofTree.obstacle? Atom.obstacle? limit) = none := by
    refine List.findSome?_eq_none_iff.2 fun entry hentry => ?_
    obtain rfl : entry = ([], .ofGoal goal) := List.mem_singleton.1 hentry
    exact hgoal
  have hstart : startWith limit 8 40 (.text goalText)
      = ⟨(redraw (Screen.start 8 40) goalText (some (.ofGoal goal))).1.say help,
          Goal.readLog limit (.ofText goalText),
          .wait ⟨goalText, some (.ofGoal goal), [[]], .command⟩⟩ := by
    simp only [startWith, start, hread, redrawWithin, hroom, hdepth,
      Turn.wait, Turn.logging, List.append_nil]
    rfl
  have hawaits : Awaits limit 8 40 goalText
      ((redraw (Screen.start 8 40) goalText (some (.ofGoal goal))).1.say help)
      ⟨goalText, some (.ofGoal goal), [[]], .command⟩ := by
    refine ⟨[], Goal.readLog limit (.ofText goalText), ?_⟩
    unfold run
    rw [hstart]
    rfl
  refine ⟨_, _, hawaits, rfl, rfl, ?_, ?_⟩
  · rw [status_say]
    rfl
  · rw [Screen.proof_say, cursorLine_redraw]
    rfl

end Session

end Console

end Deduction
