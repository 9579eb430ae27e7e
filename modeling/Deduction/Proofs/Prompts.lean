/-
What goes on in the status bar stays there.

Questions, messages and the line editor draw in the status bar and leave
the proof window alone, and none of them looks like the announcement that
all goals are proved. `Frame a b` says both of a screen `a` and a later
one `b`; it holds along every drawing step here, and composes.

A prompt ends with an answer in one way only, ENTER behind a text that is
of use (`given?`). After every other key it is `Unanswered`: it goes on,
or was given up, or failed, and the screen is framed.
-/
import Deduction.Console.Prompt

namespace Deduction.Console

open Text

-- ============================================================= messages

/-- What the end of a proof is announced with. -/
def announcement : String := "All goals proved! Press ENTER to continue"

/-- The text is the announcement, or as much of it as fits. -/
def Announces (text : List Char) : Prop :=
  text ≠ [] ∧ text <+: announcement.toList

/-- A text that begins otherwise announces nothing. -/
theorem not_announces_of_head {text : List Char}
    (h : text.head? ≠ some 'A') : ¬ Announces text := by
  rintro ⟨hne, rest, hrest⟩
  cases text with
  | nil => exact hne rfl
  | cons c text =>
      have hc : some c = announcement.toList.head? := by
        rw [← hrest]
        rfl
      exact h hc

theorem head?_toList_append {a : String} {c : Char}
    (h : a.toList.head? = some c) (b : String) :
    (a ++ b).toList.head? = some c := by
  rw [String.toList_append, List.head?_append, h]
  rfl

/-- The message in the status bar after a call, given the one before.
Text under the line editor is no message. -/
def Call.message (shown : List Char) : Call → List Char
  | .write .status _ _ text none => text
  | .write .status _ _ _ (some _) => []
  | _ => shown

/-- The call does not announce anything. -/
def Call.Quiet (c : Call) : Prop :=
  ∀ shown, Announces (c.message shown) → Announces shown

/-- A message that begins otherwise is quiet, in whatever window. -/
theorem quiet_message {w : Window} {y x : Int} {text : List Char}
    (h : text.head? ≠ some 'A') : (Call.write w y x text none).Quiet := by
  intro shown hshown
  cases w with
  | status => exact absurd hshown (not_announces_of_head h)
  | goal => exact hshown
  | proof => exact hshown

/-- What is drawn with a shade is a line of text and no message. -/
theorem quiet_shaded (w : Window) (y x : Int) (text : List Char)
    (shade : Shade) : (Call.write w y x text (some shade)).Quiet := by
  intro shown hshown
  cases w with
  | status => exact absurd rfl hshown.1
  | goal => exact hshown
  | proof => exact hshown

/-- Spaces announce nothing. -/
theorem quiet_clearLine (p : Pad) (row : Int) : (p.clearLine row).Quiet := by
  refine quiet_message ?_
  unfold spaces
  rw [List.head?_replicate]
  split
  next => nofun
  next => decide

/-- Rows are drawn with a shade. -/
theorem quiet_drawRow (p : Pad) (row : Nat) : (p.drawRow row).Quiet := by
  unfold Pad.drawRow
  dsimp only
  split
  next => exact quiet_shaded _ _ _ _ _
  next => exact quiet_clearLine p row

/-- Drawing a window anew announces nothing. -/
theorem quiet_refresh (p : Pad) : ∀ c ∈ p.refresh, c.Quiet := by
  intro c hc
  unfold Pad.refresh at hc
  split at hc
  next => cases hc
  next =>
    rcases List.mem_append.1 hc with hrow | hend
    · obtain ⟨row, -, rfl⟩ := List.mem_map.1 hrow
      exact quiet_drawRow p row
    · rcases List.mem_cons.1 hend with rfl | hend
      · unfold Pad.place
        dsimp only
        split <;> exact fun _ h => h
      · obtain rfl := List.mem_singleton.1 hend
        exact fun _ h => h

-- =============================================================== frames

namespace Screen

/-- The message in the status bar. -/
def message (s : Screen) : List Char :=
  s.calls.foldl (fun shown c => c.message shown) []

/-- The message after some calls depends on the one before them only. -/
theorem message_draw (s : Screen) (calls : List Call) :
    (s.draw calls).message
      = calls.foldl (fun shown c => c.message shown) s.message :=
  List.foldl_append

/-- The second screen comes from the first by drawing outside the proof
window, and without an announcement. -/
structure Frame (a b : Screen) : Prop where
  proof : b.proof = a.proof
  clearError : b.status.clearError? = a.status.clearError?
  quiet : Announces b.message → Announces a.message

theorem Frame.refl (s : Screen) : Frame s s := ⟨rfl, rfl, id⟩

theorem Frame.trans {a b c : Screen} (hab : Frame a b) (hbc : Frame b c) :
    Frame a c :=
  ⟨hbc.proof.trans hab.proof, hbc.clearError.trans hab.clearError,
    hab.quiet ∘ hbc.quiet⟩

/-- Quiet calls announce nothing, one after the other. -/
theorem quiet_draw (s : Screen) {calls : List Call}
    (h : ∀ c ∈ calls, c.Quiet) :
    Announces (s.draw calls).message → Announces s.message := by
  rw [message_draw]
  generalize s.message = shown
  induction calls generalizing shown with
  | nil => exact id
  | cons c calls ih =>
      intro hshown
      have hrest : ∀ d ∈ calls, d.Quiet := fun d hd =>
        h d (List.mem_cons_of_mem _ hd)
      exact h c List.mem_cons_self shown (ih hrest _ hshown)

/-- Quiet calls leave the proof window alone. -/
theorem frame_draw (s : Screen) {calls : List Call}
    (h : ∀ c ∈ calls, c.Quiet) : Frame s (s.draw calls) :=
  ⟨rfl, rfl, quiet_draw s h⟩

/-- Reading a key draws nothing. -/
theorem frame_press (s : Screen) (k : Keystroke) : Frame s (s.press k) := by
  refine frame_draw s fun c hc => ?_
  obtain rfl := List.mem_singleton.1 hc
  exact fun _ h => h

/-- What a message leaves in the status bar, as far as it can be drawn. -/
theorem message_say (s : Screen) (text : String)
    (h : s.status.clearError? = none) :
    (s.say text).message = slice text.toList 0 (s.status.width - 1) := by
  unfold say
  rw [h, if_neg (by decide), message_draw]
  rfl

/-- A text that begins otherwise still does when it is cut. -/
theorem head?_slice {text : List Char} {last : Int}
    (h : text.head? ≠ some 'A') : (slice text 0 last).head? ≠ some 'A' := by
  intro hslice
  have hprefix : slice text 0 last <+: text := List.take_prefix _ _
  obtain ⟨rest, hrest⟩ := hprefix
  rw [← hrest, List.head?_append, hslice] at h
  exact h rfl

/-- A message other than the announcement stays in the status bar. -/
theorem frame_say (s : Screen) {text : String}
    (h : text.toList.head? ≠ some 'A') : Frame s (s.say text) := by
  unfold say
  split
  next => exact .refl s
  next =>
    refine frame_draw s ?_
    simp only [List.forall_mem_cons]
    exact ⟨quiet_clearLine _ _, quiet_message (head?_slice h),
      fun _ h => h, fun _ hc => nomatch hc⟩

/-- So does a question. -/
theorem frame_ask (s : Screen) {text : String}
    (h : text.toList.head? ≠ some 'A') : Frame s (s.ask text) := by
  refine frame_say s ?_
  rw [String.toList_append, List.head?_append]
  cases htext : text.toList.head? with
  | none => decide
  | some c => rwa [htext] at h

/-- No message, not even the announcement, touches the proof window. -/
theorem proof_say (s : Screen) (text : String) :
    (s.say text).proof = s.proof := by
  unfold say
  split <;> rfl

/-- A message takes an announcement away. -/
theorem not_announces_say {s : Screen} {text : String}
    (h : text.toList.head? ≠ some 'A')
    (hs : Announces s.message → s.status.clearError? = none) :
    ¬ Announces (s.say text).message := by
  intro hsay
  have hclear := hs ((frame_say s h).quiet hsay)
  rw [message_say s text hclear] at hsay
  exact not_announces_of_head (head?_slice h) hsay

/-- Drawing the line editor stays in the status bar. -/
theorem frame_showStatus (s : Screen) {status : Pad}
    (h : status.clearError? = s.status.clearError?) :
    Frame s (s.showStatus status) :=
  ⟨rfl, h, quiet_draw { s with status } (quiet_refresh status)⟩

theorem frame_setCells (s : Screen) (cells : List (List Char)) :
    Frame s (s.setCells cells) := ⟨rfl, rfl, id⟩

theorem clearError?_cursorLeft (p : Pad) :
    p.cursorLeft.clearError? = p.clearError? := by
  unfold Pad.cursorLeft
  split <;> rfl

/-- A new cell changes the text, and the cursor moves on. -/
theorem exists_cells_of_type {s s' : Screen} {i : Int} {mode : Mode}
    {cell : List Char} (h : s.type i mode cell = .ok s') :
    ∃ cells, s' = (s.setCells cells).showStatus
      (s.setCells cells).status.cursorRight := by
  unfold type at h
  dsimp only at h
  generalize (if mode = .replace ∧ i < s.cells.length then
    replaceAt s.cells i cell else insertAt s.cells i cell) = edited at h
  cases edited with
  | error e => cases h
  | ok cells =>
      injection h with h
      exact ⟨cells, h.symm⟩

/-- A character that is typed does, too. -/
theorem frame_type {s s' : Screen} {i : Int} {mode : Mode}
    {cell : List Char} (h : s.type i mode cell = .ok s') : Frame s s' := by
  obtain ⟨cells, rfl⟩ := exists_cells_of_type h
  exact (frame_setCells s cells).trans (frame_showStatus _ rfl)

end Screen

-- ============================================================== prompts

/-- A turn of a prompt without an answer: it goes on, or ends with nothing,
or fails. -/
inductive Turn.Unanswered {σ ω : Type} (nothing : ω → Prop)
    (screen : Screen) : Turn σ ω → Prop where
  | wait {screen' : Screen} {log : List Log.Record} {state : σ} :
      Screen.Frame screen screen' →
      Unanswered nothing screen ⟨screen', log, .wait state⟩
  | done {screen' : Screen} {log : List Log.Record} {result : ω} :
      Screen.Frame screen screen' → nothing result →
      Unanswered nothing screen ⟨screen', log, .done result⟩
  | failed {screen' : Screen} {log : List Log.Record} {cause : Fault} :
      Screen.Frame screen screen' → cause ≠ .selection →
      Unanswered nothing screen ⟨screen', log, .failed cause⟩

namespace LineEdit

/-- And so does the end of the line editor. -/
theorem frame_leave (screen : Screen) : Screen.Frame screen (leave screen) := by
  refine Screen.frame_draw screen ?_
  simp only [List.forall_mem_cons]
  exact ⟨quiet_clearLine _ _, fun _ h => h, fun _ hc => nomatch hc⟩

/-- The line editor begins without an answer. -/
theorem unanswered_begin (screen : Screen) (text : String)
    (index start : Int) :
    (begin screen text index start).Unanswered (· = none) screen := by
  unfold begin
  dsimp only
  have hframe (status : Pad)
      (h : status.clearError? = screen.status.clearError?) :
      Screen.Frame screen
        ((screen.setCells (text.toList.map ([·]))).showStatus status) :=
    (Screen.frame_setCells screen _).trans (Screen.frame_showStatus _ h)
  split
  next => exact .failed (hframe _ rfl) nofun
  next => exact .wait (hframe _ rfl)

theorem step_enter (screen : Screen) (e : LineEdit) :
    step screen e .enter = .done (leave screen) (some screen.editText) := rfl

/-- No key but ENTER ends the editor with a text. -/
theorem unanswered_step {k : Keystroke} (hk : k ≠ .enter) (screen : Screen)
    (e : LineEdit) : (step screen e k).Unanswered (· = none) screen := by
  have hsame : Screen.Frame screen screen := .refl screen
  unfold step
  split
  next =>
    split
    next => exact .wait (Screen.frame_showStatus _ rfl)
    next => exact .wait hsame
  next =>
  split
  next =>
    split
    next =>
      exact .wait
        (Screen.frame_showStatus _ (Screen.clearError?_cursorLeft _))
    next => exact .wait hsame
  next =>
  split
  next =>
    split
    next =>
      split
      next => exact .failed hsame nofun
      next cells _ =>
        exact .wait ((Screen.frame_setCells screen cells).trans
          (Screen.frame_showStatus _ (Screen.clearError?_cursorLeft _)))
    next => exact .wait hsame
  next =>
  split
  next =>
    split
    next =>
      split
      next => exact .failed hsame nofun
      next cells _ =>
        exact .wait ((Screen.frame_setCells screen cells).trans
          (Screen.frame_showStatus _ rfl))
    next => exact .wait hsame
  next =>
  split
  next => exact .wait hsame
  next =>
  split
  next => exact .done (frame_leave screen) rfl
  next =>
  split
  next c =>
    split
    next =>
      split
      next => exact .failed hsame nofun
      next screen' htype => exact .wait (Screen.frame_type htype)
    next => exact .wait hsame
  next => exact .wait hsame

end LineEdit

namespace GoalPrompt

/-- The goal that a key gives. -/
def given? (limit : Nat) (screen : Screen) (k : Keystroke) :
    GoalPrompt → Option Goal
  | .editing _ _ =>
    if k = .enter then (Goal.read limit screen.editText).toOption else none
  | .refused _ => none

/-- As long as the line editor has no answer there is no goal. -/
theorem unanswered_afterEdit (limit : Nat) (old : String) {screen : Screen}
    {turn : Turn LineEdit (Option String)}
    (h : turn.Unanswered (· = none) screen) :
    (afterEdit limit old turn).Unanswered (·.1 = none) screen := by
  cases h with
  | wait hf => exact .wait hf
  | done hf hnone =>
      subst hnone
      exact .done hf rfl
  | failed hf hcause => exact .failed hf hcause

/-- The question for a goal begins without an answer. -/
theorem unanswered_begin (limit : Nat) (screen : Screen) (text : String) :
    (begin limit screen text).Unanswered (·.1 = none) screen :=
  unanswered_afterEdit limit text (LineEdit.unanswered_begin _ _ _ _)

/-- Every key but ENTER behind a text that can be read leaves the question
for a goal unanswered. The text may be edited, or refused, and then edited
again. -/
theorem unanswered_step {limit : Nat} {screen : Screen} {k : Keystroke}
    {p : GoalPrompt} (h : p.given? limit screen k = none) :
    (step limit screen p k).Unanswered (·.1 = none) screen := by
  cases p with
  | editing old e =>
      by_cases hk : k = .enter
      · subst hk
        rw [given?, if_pos rfl] at h
        simp only [step, LineEdit.step_enter, afterEdit, Turn.done]
        have hleave := LineEdit.frame_leave screen
        cases hread : Goal.read limit screen.editText with
        | ok goal => rw [hread] at h; cases h
        | error e =>
            dsimp only
            split
            next =>
              refine .wait (hleave.trans (Screen.frame_ask _ ?_))
              rw [String.append_assoc, head?_toList_append (c := 'U') rfl]
              decide
            next =>
              refine .failed hleave ?_
              intro hcause
              cases hcause
      · exact unanswered_afterEdit limit old
          (LineEdit.unanswered_step hk screen e)
  | refused text =>
      unfold step
      dsimp only
      split
      next => exact .done (Screen.frame_say screen (by decide)) rfl
      next => exact .wait (.refl screen)

/-- ENTER behind a text that can be read ends the question with the goal it
is read as. -/
theorem step_given {limit : Nat} {screen : Screen} {k : Keystroke}
    {p : GoalPrompt} {goal : Goal}
    (h : p.given? limit screen k = some goal) :
    Goal.read limit screen.editText = .ok goal
      ∧ step limit screen p k
        = ⟨LineEdit.leave screen,
            Goal.readLog limit (.ofText screen.editText),
            .done (some goal, screen.editText)⟩ := by
  cases p with
  | editing old e =>
      rw [given?] at h
      split at h
      next hk =>
        subst hk
        cases hread : Goal.read limit screen.editText with
        | error e => rw [hread] at h; cases h
        | ok found =>
            rw [hread] at h
            obtain rfl := Option.some.inj h
            refine ⟨rfl, ?_⟩
            simp only [step, LineEdit.step_enter, afterEdit, Turn.done,
              hread, Turn.logging, List.append_nil]
      next => cases h
  | refused text => cases h

end GoalPrompt

namespace NumberPrompt

/-- The number that a key gives. -/
def given? (screen : Screen) (k : Keystroke) : NumberPrompt → Option Int
  | .editing length _ =>
    if k = .enter ∧ isDigits (reply length screen.editText) = true then
      (Numeral.read (String.ofList (reply length screen.editText))).toOption
    else none
  | .refused => none

/-- As long as the line editor has no answer there is no number. -/
theorem unanswered_afterEdit (length : Nat) {screen : Screen}
    {turn : Turn LineEdit (Option String)}
    (h : turn.Unanswered (· = none) screen) :
    (afterEdit length turn).Unanswered (· = none) screen := by
  cases h with
  | wait hf => exact .wait hf
  | done hf hnone =>
      subst hnone
      exact .done hf rfl
  | failed hf hcause => exact .failed hf hcause

/-- The question for a number begins without an answer. -/
theorem unanswered_begin (screen : Screen) (prompt : String) :
    (begin screen prompt).Unanswered (· = none) screen :=
  unanswered_afterEdit _ (LineEdit.unanswered_begin _ _ _ _)

/-- Every key but ENTER behind a numeral leaves the question for a number
unanswered. A reply that is no numeral is refused, and one of digits that
are no numeral fails. -/
theorem unanswered_step {screen : Screen} {k : Keystroke} {p : NumberPrompt}
    (h : p.given? screen k = none) :
    (step screen p k).Unanswered (· = none) screen := by
  cases p with
  | editing length e =>
      by_cases hk : k = .enter
      · subst hk
        rw [given?] at h
        simp only [step, LineEdit.step_enter, afterEdit, Turn.done]
        have hleave := LineEdit.frame_leave screen
        split
        next hdigits =>
          rw [if_pos ⟨rfl, hdigits⟩] at h
          split
          next n hread => rw [hread] at h; cases h
          next =>
            refine .failed hleave ?_
            intro hcause
            cases hcause
        next => exact .wait (hleave.trans (Screen.frame_ask _ (by decide)))
      · exact unanswered_afterEdit length
          (LineEdit.unanswered_step hk screen e)
  | refused =>
      unfold step
      dsimp only
      split
      next => exact .done (Screen.frame_say screen (by decide)) rfl
      next => exact .wait (.refl screen)

/-- ENTER behind a numeral ends the question with its value. -/
theorem step_given {screen : Screen} {k : Keystroke} {p : NumberPrompt}
    {n : Int} (h : p.given? screen k = some n) :
    step screen p k = .done (LineEdit.leave screen) (some n) := by
  cases p with
  | editing length e =>
      rw [given?] at h
      split at h
      next hk =>
        obtain ⟨rfl, hdigits⟩ := hk
        simp only [step, LineEdit.step_enter, afterEdit, Turn.done,
          hdigits, if_true]
        split
        next m hread =>
          rw [hread] at h
          rw [Option.some.inj h]
        next hread => rw [hread] at h; cases h
      next => cases h
  | refused => cases h

end NumberPrompt

end Deduction.Console
