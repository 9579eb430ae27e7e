/-
What becomes of a reply to the question for a number.

The question is the line editor, and what was typed is the line behind the
prompt, without the white space around it. There are three kinds of
replies. A numeral (`IsNumeral`) is the answer. A reply with a character
that is no digit, or none at all, is refused with a message, and nothing
is the answer. And there are replies made of digits that are no numeral
(`IsFlawed`): the check for digits lets them pass, but they cannot be read.
At these the program stops.

`run_editing` says that until then the question is the editor, key by key,
so that everything known about its line is known about the reply.
-/
import Deduction.Proofs.Editing

namespace Deduction.Console.NumberPrompt

open Text

variable {screen : Screen} {prompt : String} {keys : List Keystroke}
  {e : LineEdit} {cs : List Char}

-- ============================================================== replies

/-- A numeral of decimal digits, not too many. -/
def IsNumeral (cs : List Char) : Prop :=
  cs ≠ [] ∧ (∀ c ∈ cs, isDecimal c = true) ∧ cs.length ≤ Numeral.maxDigits

/-- Digits that are no numeral: some of them are not decimal, or they are
too many. -/
def IsFlawed (cs : List Char) : Prop :=
  cs ≠ [] ∧ (∀ c ∈ cs, isDigit c = true)
    ∧ ((∃ c ∈ cs, isDecimal c = false) ∨ Numeral.maxDigits < cs.length)

/-- Digits are a numeral or flawed. -/
theorem isNumeral_or_isFlawed (h : isDigits cs = true) :
    IsNumeral cs ∨ IsFlawed cs := by
  obtain ⟨hne, hdigit⟩ := isDigits_iff.1 h
  by_cases hdecimal : ∀ c ∈ cs, isDecimal c = true
  · by_cases hlength : cs.length ≤ Numeral.maxDigits
    · exact Or.inl ⟨hne, hdecimal, hlength⟩
    · exact Or.inr ⟨hne, hdigit, Or.inr (Nat.lt_of_not_le hlength)⟩
  · simp only [not_forall, Bool.not_eq_true] at hdecimal
    obtain ⟨c, hc, hodd⟩ := hdecimal
    exact Or.inr ⟨hne, hdigit, Or.inl ⟨c, hc, hodd⟩⟩

theorem IsNumeral.isDigits (h : IsNumeral cs) : isDigits cs = true :=
  isDigits_iff.2
    ⟨h.1, fun c hc => isDigit_of_isDecimal (h.2.1 c hc)⟩

theorem IsFlawed.isDigits (h : IsFlawed cs) : isDigits cs = true :=
  isDigits_iff.2 ⟨h.1, h.2.1⟩

theorem IsFlawed.not_isNumeral (h : IsFlawed cs) : ¬ IsNumeral cs := by
  intro hnumeral
  rcases h.2.2 with ⟨c, hc, hodd⟩ | hlength
  · rw [hnumeral.2.1 c hc] at hodd
    cases hodd
  · exact Nat.not_lt.2 hnumeral.2.2 hlength

/-- Flawed digits are not read. -/
theorem IsFlawed.read (h : IsFlawed cs) :
    ∃ cause, Numeral.read (String.ofList cs) = .error cause := by
  rw [Numeral.read_of_isDigit h.1 h.2.1]
  split
  next => exact ⟨_, rfl⟩
  next hshort =>
    have hodd : cs.all isDecimal ≠ true := by
      rw [ne_eq, List.all_eq_true]
      intro hdecimal
      rw [List.takeWhile_eq_self_iff.2 hdecimal] at hshort
      exact h.not_isNumeral ⟨h.1, hdecimal, Nat.le_of_not_lt hshort⟩
    rw [if_neg hodd]
    exact ⟨_, rfl⟩

-- ============================================================= the steps

/-- What a useless reply is refused with. -/
def refusal : String := "Hypothesis number expected. Press ENTER to continue"

/-- The question waits for ENTER, and the refusal is on the screen, as much
of it as fits. -/
def Refusing (turn : Turn NumberPrompt (Option Int)) : Prop :=
  turn.next = .wait .refused
    ∧ turn.screen.message
      = slice refusal.toList 0 (turn.screen.status.width - 1)

theorem refusing_say (h : screen.status.clearError? = none) :
    Refusing (.wait (screen.say refusal) .refused) := by
  refine ⟨rfl, ?_⟩
  show (screen.say refusal).message
    = slice refusal.toList 0 ((screen.say refusal).status.width - 1)
  rw [Screen.message_say _ _ h, Session.status_say]

/-- How ENTER goes on from a reply: with its value, with a fault, or with
the refusal. -/
inductive Entered (screen : Screen) (cs : List Char) :
    Turn NumberPrompt (Option Int) → Prop where
  | number : IsNumeral cs →
      Entered screen cs (.done screen (some (Numeral.value cs)))
  | stopped {cause : Numeral.Error} : IsFlawed cs →
      Numeral.read (String.ofList cs) = .error cause →
      Entered screen cs (.failed screen (.reply cause))
  | refused : ¬ IsNumeral cs → ¬ IsFlawed cs →
      Entered screen cs (.wait (screen.say refusal) .refused)

namespace Entered

variable {turn : Turn NumberPrompt (Option Int)}

/-- The reply ends the question just if it is a numeral, and then with its
value. -/
theorem done_iff (h : Entered screen cs turn) (n : Int) :
    turn.next = .done (some n) ↔ IsNumeral cs ∧ n = Numeral.value cs := by
  cases h with
  | number h =>
      constructor
      · intro hn
        injection hn with hn
        injection hn with hn
        exact ⟨h, hn.symm⟩
      · intro hn
        rw [hn.2]
        rfl
  | stopped h => exact iff_of_false nofun fun hn => h.not_isNumeral hn.1
  | refused h => exact iff_of_false nofun fun hn => h hn.1

/-- It fails just if it is flawed. -/
theorem failed_iff (h : Entered screen cs turn) :
    (∃ cause, turn.next = .failed cause) ↔ IsFlawed cs := by
  cases h with
  | number h =>
      refine iff_of_false ?_ fun hflawed => hflawed.not_isNumeral h
      intro ⟨cause, hcause⟩
      cases hcause
  | stopped h => exact iff_of_true ⟨_, rfl⟩ h
  | refused _ h =>
      refine iff_of_false ?_ h
      intro ⟨cause, hcause⟩
      cases hcause

/-- Every other reply is refused. -/
theorem refusing (h : Entered screen cs turn)
    (hclear : screen.status.clearError? = none) (hnumeral : ¬ IsNumeral cs)
    (hflawed : ¬ IsFlawed cs) : Refusing turn := by
  cases h with
  | number h => exact absurd h hnumeral
  | stopped h => exact absurd h hflawed
  | refused => exact refusing_say hclear

end Entered

/-- ENTER enters the reply, whatever the question. -/
theorem entered_step (screen : Screen) (length : Nat) (e : LineEdit) :
    Entered (LineEdit.leave screen) (reply length screen.editText)
      (step screen (.editing length e) .enter) := by
  simp only [step, LineEdit.step_enter, afterEdit, Turn.done]
  generalize reply length screen.editText = cs
  by_cases hdigits : isDigits cs = true
  · rw [if_pos hdigits]
    rcases isNumeral_or_isFlawed hdigits with h | h
    · rw [Numeral.read_decimals h.1 h.2.1 h.2.2]
      exact .number h
    · obtain ⟨cause, hread⟩ := h.read
      rw [hread]
      exact .stopped h hread
  · rw [if_neg hdigits]
    exact .refused (fun h => hdigits h.isDigits) (fun h => hdigits h.isDigits)

-- ============================================================== the runs

/-- The editor in which the number is typed, after some keys. -/
def editor (screen : Screen) (prompt : String) (keys : List Keystroke) :
    Turn LineEdit (Option String) :=
  (Turn.run LineEdit.step
    (LineEdit.begin screen prompt prompt.length prompt.length) keys).1

/-- As long as the editor waits, the question is the editor. -/
theorem run_editing (hwait : (editor screen prompt keys).next = .wait e) :
    (Turn.run step (begin screen prompt) keys).1
        = .wait (editor screen prompt keys).screen (.editing prompt.length e)
      ∧ Screen.Frame screen (editor screen prompt keys).screen := by
  unfold editor at hwait ⊢
  induction keys using List.reverseRecOn generalizing e with
  | nil =>
      have hbegin := LineEdit.unanswered_begin screen prompt prompt.length
        prompt.length
      unfold begin
      dsimp only [Turn.run]
      generalize LineEdit.begin _ _ _ _ = turn at hwait hbegin ⊢
      cases hbegin with
      | wait hframe =>
          cases hwait
          exact ⟨rfl, hframe⟩
      | done => cases hwait
      | failed => cases hwait
  | append_singleton keys k ih =>
      obtain ⟨e₀, hwait₀⟩ := Turn.exists_wait_of_concat hwait
      obtain ⟨hrun, hframe₀⟩ := ih hwait₀
      rw [Turn.run_concat step, hrun]
      rw [Turn.run_concat, hwait₀] at hwait ⊢
      dsimp only [Turn.wait] at hwait ⊢
      have henter : k ≠ .enter := by
        intro hk
        subst hk
        cases hwait
      generalize (Turn.run LineEdit.step _ keys).1.screen = before
        at hwait hframe₀ ⊢
      have hpress := hframe₀.trans (Screen.frame_press before k)
      have hstep := LineEdit.unanswered_step henter (before.press k) e₀
      unfold step
      dsimp only
      generalize LineEdit.step _ e₀ k = turn at hwait hstep ⊢
      cases hstep with
      | wait hnew =>
          cases hwait
          exact ⟨rfl, hpress.trans hnew⟩
      | done => cases hwait
      | failed => cases hwait

/-- What has been typed behind the prompt, without the blanks around it. -/
def typed (prompt : String) (keys : List Keystroke) : List Char :=
  trim (((Gap.start prompt prompt.length).run prompt.length keys).line.drop
    prompt.length)

/-- Until a key ends the editor, the question waits for the next one, and
the reply is what the keys have made of the line behind the prompt. -/
theorem run_typing (hclear : screen.status.clearError? = none)
    (hfits : Word.fits Word.sizeBits (prompt.length + keys.length : Nat) = true)
    (hkeys : ∀ k ∈ keys, k ≠ .escape ∧ k ≠ .enter) :
    ∃ screen' e, (Turn.run step (begin screen prompt) keys).1
        = .wait screen' (.editing prompt.length e)
      ∧ screen'.status.clearError? = none
      ∧ reply prompt.length screen'.editText = typed prompt keys := by
  have hprompt := Nat.le_refl prompt.length
  obtain ⟨e, hwait⟩ :=
    LineEdit.waits_run hprompt hprompt hclear hfits hkeys
  obtain ⟨hrun, hframe⟩ := run_editing hwait
  refine ⟨_, e, hrun, hframe.clearError.trans hclear, ?_⟩
  have hshows := LineEdit.shows_run screen hprompt hprompt keys hwait
  rw [editor, hshows.editText, reply, String.toList_ofList]
  rfl

theorem message_press (screen : Screen) (k : Keystroke) :
    (screen.press k).message = screen.message := by
  unfold Screen.press
  rw [Screen.message_draw]
  rfl

/-- A refusal stays on the screen until ENTER. -/
theorem refusing_run {turn : Turn NumberPrompt (Option Int)}
    (h : Refusing (Turn.run step turn keys).1) {others : List Keystroke}
    (hothers : ∀ k ∈ others, k ≠ .enter) :
    Refusing (Turn.run step turn (keys ++ others)).1 := by
  induction others using List.reverseRecOn with
  | nil =>
      rw [List.append_nil]
      exact h
  | append_singleton others k ih =>
      obtain ⟨hnext, hmessage⟩ := ih fun k' hk' =>
        hothers k' (List.mem_append_left _ hk')
      have henter : k ≠ .enter := hothers k (by simp)
      rw [← List.append_assoc, Turn.run_concat, hnext]
      dsimp only [step]
      rw [if_neg henter]
      exact ⟨rfl, (message_press _ k).trans hmessage⟩

-- =========================================================== the outcome

/-- ENTER behind what has been typed. -/
theorem entered_run (screen : Screen) (prompt : String)
    (hclear : screen.status.clearError? = none)
    (hfits : Word.fits Word.sizeBits (prompt.length + keys.length : Nat) = true)
    (hkeys : ∀ k ∈ keys, k ≠ .escape ∧ k ≠ .enter) :
    ∃ screen', screen'.status.clearError? = none
      ∧ Entered screen' (typed prompt keys)
        (Turn.run step (begin screen prompt) (keys ++ [.enter])).1 := by
  obtain ⟨screen', e, hrun, hclear', hreply⟩ := run_typing hclear hfits hkeys
  have hentered := entered_step (screen'.press .enter) prompt.length e
  rw [show reply _ (screen'.press .enter).editText = _ from hreply] at hentered
  refine ⟨LineEdit.leave (screen'.press .enter), hclear', ?_⟩
  rw [Turn.run_concat, hrun]
  dsimp only [Turn.wait]
  rw [Turn.logging_nil]
  exact hentered

/-- How the question for a number ends, on a screen that can be drawn and
with a line that can be counted. ESC ends it with nothing. ENTER ends it
with a number exactly if the reply is a numeral, and then with its value.
Behind any other reply there comes a message, which stays until the next
ENTER and ends it with nothing; but if the reply is made of digits and is
no numeral, the program stops. -/
theorem question_ends (screen : Screen) (prompt : String)
    {keys : List Keystroke} (hclear : screen.status.clearError? = none)
    (hfits : Word.fits Word.sizeBits (prompt.length + keys.length : Nat) = true)
    (hkeys : ∀ k ∈ keys, k ≠ .escape ∧ k ≠ .enter) :
    let ask (keys : List Keystroke) :=
      (Turn.run step (begin screen prompt) keys).1
    let cs := typed prompt keys
    (ask (keys ++ [.escape])).next = .done none
    ∧ (∀ n : Int, (ask (keys ++ [.enter])).next = .done (some n)
        ↔ IsNumeral cs ∧ n = Numeral.value cs)
    ∧ ((∃ cause, (ask (keys ++ [.enter])).next = .failed cause)
        ↔ IsFlawed cs)
    ∧ (¬ IsNumeral cs → ¬ IsFlawed cs → ∀ others : List Keystroke,
        (∀ k ∈ others, k ≠ .enter) →
        Refusing (ask (keys ++ [.enter] ++ others))
        ∧ (ask (keys ++ [.enter] ++ others ++ [.enter])).next
          = .done none) := by
  intro ask cs
  obtain ⟨screen', hclear', hentered⟩ :=
    entered_run screen prompt hclear hfits hkeys
  refine ⟨?_, hentered.done_iff, hentered.failed_iff, ?_⟩
  · obtain ⟨_, e, hrun, -⟩ := run_typing hclear hfits hkeys
    show (Turn.run step _ (keys ++ [.escape])).1.next = _
    rw [Turn.run_concat, hrun]
    rfl
  · intro hnumeral hflawed others hothers
    have hrefusing := refusing_run (hentered.refusing hclear' hnumeral hflawed)
      hothers
    refine ⟨hrefusing, ?_⟩
    show (Turn.run step _ (keys ++ [.enter] ++ others ++ [.enter])).1.next = _
    rw [Turn.run_concat, hrefusing.1]
    rfl

/-- A number typed in the digits of two scripts, with a blank in front and
over a mistake. -/
def mixedScripts : List Keystroke :=
  [.char ' ', .char '٣', .char '7', .named "KEY_BACKSPACE", .char '1']

theorem question_ends_mixedScripts :
    IsNumeral (typed "AndElim hypothesis (0-40): " mixedScripts)
      ∧ (Turn.run step
          (begin (Screen.start 8 40) "AndElim hypothesis (0-40): ")
          (mixedScripts ++ [.enter])).1.next = .done (some (31 : Nat)) := by
  have htyped : typed "AndElim hypothesis (0-40): " mixedScripts
      = ['٣', '1'] := by decide +kernel
  have hdecimal : ['٣', '1'].all isDecimal = true := by decide +kernel
  have hnumeral : IsNumeral ['٣', '1'] :=
    ⟨List.cons_ne_nil _ _, List.all_eq_true.1 hdecimal, by decide⟩
  have hkeys := LineEdit.edits_of_all (show mixedScripts.all _ = true by decide)
  obtain ⟨-, hdone, -, -⟩ := question_ends (Screen.start 8 40)
    "AndElim hypothesis (0-40): " rfl (fits_of_le (by decide)) hkeys
  rw [htyped] at hdone ⊢
  exact ⟨hnumeral, (hdone 31).2 ⟨hnumeral, by decide +kernel⟩⟩

/-- A superscript is a digit but no numeral, and the program stops at it. -/
theorem superscript_not_read :
    (Turn.run step (begin (Screen.start 8 30) "AndElim hypothesis (0-0): ")
      ([.char '²'] ++ [.enter])).1.next
      = .failed (.reply (.malformed "²")) := by
  have htyped : typed "AndElim hypothesis (0-0): " [.char '²'] = ['²'] := by
    decide +kernel
  have hkeys := LineEdit.edits_of_all
    (show [Keystroke.char '²'].all _ = true by decide)
  obtain ⟨screen', -, hentered⟩ := entered_run (Screen.start 8 30)
    "AndElim hypothesis (0-0): " rfl (fits_of_le (by decide)) hkeys
  rw [htyped] at hentered
  have hdigit : ['²'].all isDigit = true := by decide +kernel
  have hflawed : IsFlawed ['²'] :=
    ⟨List.cons_ne_nil _ _, List.all_eq_true.1 hdigit,
      Or.inl ⟨'²', List.mem_cons_self, by decide +kernel⟩⟩
  generalize (Turn.run step _ _).1 = turn at hentered ⊢
  cases hentered with
  | number h => exact absurd h hflawed.not_isNumeral
  | stopped _ hread =>
      have hcause : Numeral.read (String.ofList ['²'])
          = .error (.malformed "²") := by decide +kernel
      have hsame := Except.error.inj (hread.symm.trans hcause)
      rw [hsame]
      rfl
  | refused _ h => exact absurd hflawed h

end Deduction.Console.NumberPrompt
