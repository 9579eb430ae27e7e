/-
The line editor is a line with a gap in it.

What the editor knows is spread over the screen: the cells of the text,
the line that is drawn from them, the cursor of the pad, and an index of
the editor's own. Every key changes some of them, each in its own place.
`Gap` is the same thing seen plainly: the text on the left of the cursor,
the text on the right of it, and the mode. A key moves a character over
the gap, takes one away at its edge, or puts one in, and what is left of
the gap never gets shorter than the prompt.

`Shows` says that a screen and an editor are a picture of such a line. A
key keeps it (`Shows.step`), unless the line has outgrown the machine's
words, and so does a run (`shows_run`). In particular the index is the
cursor, and the prompt stays where it is.
-/
import Deduction.Proofs.Keyboard

namespace Deduction

-- ================================================================ edits

namespace Word

/-- What is smaller than a number that fits fits. -/
theorem fits_mono {m n : Nat} (h : m ≤ n) (hn : fits sizeBits n = true) :
    fits sizeBits m = true := by
  have hpow : 0 ≤ Int.pow 2 (sizeBits - 1) := by decide
  unfold fits at hn ⊢
  rw [decide_eq_true_iff] at hn ⊢
  omega

theorem fits_eq_false_mono {m n : Nat} (h : m ≤ n)
    (hm : fits sizeBits m = false) : fits sizeBits n = false := by
  rw [Bool.eq_false_iff]
  intro hn
  rw [fits_mono h hn] at hm
  cases hm

end Word

namespace Text

variable {α β : Type} {xs : List α} {n : Nat}

/-- A cell that is there is found, as long as positions are words. -/
theorem cell_cases (h : n < xs.length) (f : Nat → β) :
    (cell xs.length n).map f = .ok (f n)
      ∨ Word.fits Word.sizeBits xs.length = false
        ∧ ∃ cause, (cell xs.length n).map f = .error cause := by
  unfold cell
  dsimp only
  rw [if_neg (by omega : ¬ (n : Int) < 0)]
  cases hn : Word.fits Word.sizeBits n with
  | true =>
      rw [if_neg (by decide), if_pos (by omega), Int.toNat_natCast]
      exact Or.inl rfl
  | false =>
      exact Or.inr ⟨Word.fits_eq_false_mono (Nat.le_of_lt h) hn, .position, rfl⟩

/-- A place in a list is erased, unless the list has outgrown the words. -/
theorem eraseAt_cases (h : n < xs.length) :
    eraseAt xs n = .ok (xs.eraseIdx n)
      ∨ Word.fits Word.sizeBits xs.length = false
        ∧ ∃ cause, eraseAt xs n = .error cause :=
  cell_cases h _

/-- So it is with replacing. -/
theorem replaceAt_cases (h : n < xs.length) (x : α) :
    replaceAt xs n x = .ok (xs.set n x)
      ∨ Word.fits Word.sizeBits xs.length = false
        ∧ ∃ cause, replaceAt xs n x = .error cause :=
  cell_cases h _

/-- And with inserting, also behind the last place. -/
theorem insertAt_cases (h : n ≤ xs.length) (x : α) :
    insertAt xs n x = .ok (xs.take n ++ x :: xs.drop n)
      ∨ Word.fits Word.sizeBits xs.length = false
        ∧ ∃ cause, insertAt xs n x = .error cause := by
  have hclamp : clamp xs.length n = n := by
    unfold clamp
    rw [if_neg (by omega), Int.toNat_natCast, Nat.min_eq_left h]
  unfold insertAt
  dsimp only
  rw [hclamp]
  cases hn : Word.fits Word.sizeBits n with
  | true =>
      rw [if_pos rfl]
      exact Or.inl rfl
  | false => exact Or.inr ⟨Word.fits_eq_false_mono h hn, .insertion, rfl⟩

end Text

namespace Console

-- ============================================================== the gap

/-- A line that is being edited, on both sides of the cursor. -/
structure Gap where
  left : List Char
  right : List Char
  mode : Mode
  deriving DecidableEq, Repr

namespace Gap

/-- The whole line. -/
def line (g : Gap) : List Char := g.left ++ g.right

/-- A text before the first key, with the cursor at some index. -/
def start (text : String) (index : Nat) : Gap :=
  ⟨text.toList.take index, text.toList.drop index, .insert⟩

/-- The cursor goes right over a character. -/
def forward (g : Gap) : Gap :=
  match g.right with
  | [] => g
  | c :: cs => { g with left := g.left ++ [c], right := cs }

/-- The cursor goes left over a character, but not into the prompt. -/
def back (prompt : Nat) (g : Gap) : Gap :=
  if prompt < g.left.length then
    { g with left := g.left.dropLast,
             right := g.left.getLast?.toList ++ g.right }
  else g

/-- The character on the left goes, unless it is the prompt's. -/
def erase (prompt : Nat) (g : Gap) : Gap :=
  if prompt < g.left.length then { g with left := g.left.dropLast } else g

/-- The character on the right goes. -/
def delete (g : Gap) : Gap := { g with right := g.right.tail }

/-- A character comes in on the left, in replace mode for the one on the
right. -/
def type (g : Gap) (c : Char) : Gap :=
  { g with left := g.left ++ [c],
           right := if g.mode = .replace then g.right.tail else g.right }

/-- Inserting becomes replacing, and replacing inserting. -/
def switch (g : Gap) : Gap :=
  match g.mode with
  | .insert => { g with mode := .replace }
  | .replace => { g with mode := .insert }

/-- What a key does to the line. -/
def press (prompt : Nat) (g : Gap) : Keystroke → Gap
  | .named "KEY_RIGHT" => g.forward
  | .named "KEY_LEFT" => g.back prompt
  | .named "KEY_BACKSPACE" => g.erase prompt
  | .named "KEY_DC" => g.delete
  | .named "KEY_IC" => g.switch
  | .named _ => g
  | .char '\x7f' => g.erase prompt
  | .char '\x08' => g.erase prompt
  | .char c => if Text.isPrintable c then g.type c else g

/-- What some keys do, one after the other. -/
def run (prompt : Nat) (g : Gap) (keys : List Keystroke) : Gap :=
  keys.foldl (press prompt) g

/-- Moving the cursor right leaves the line as it is. -/
theorem line_forward (g : Gap) : g.forward.line = g.line := by
  unfold forward
  split
  next => rfl
  next c cs hright =>
    show (g.left ++ [c]) ++ cs = g.left ++ g.right
    rw [hright, List.append_assoc]
    rfl

/-- So does moving it left, whether or not the prompt is in the way. -/
theorem line_back (prompt : Nat) (g : Gap) : (g.back prompt).line = g.line := by
  unfold back line
  split
  next hlt =>
    dsimp only
    cases hlast : g.left.getLast? with
    | none =>
        rw [List.getLast?_eq_none_iff.1 hlast] at hlt
        exact absurd hlt (Nat.not_lt_zero _)
    | some c =>
        rw [Option.toList_some, ← List.append_assoc,
          List.dropLast_append_getLast? c hlast]
  next => rfl

theorem line_switch (g : Gap) : g.switch.line = g.line := by
  unfold switch
  split <;> rfl

/-- A key makes the line longer by one character at most. -/
theorem length_press_le (prompt : Nat) (g : Gap) (k : Keystroke) :
    (g.press prompt k).line.length ≤ g.line.length + 1 := by
  have herase : (g.erase prompt).line.length ≤ g.line.length := by
    unfold erase
    split
    · simp only [line, List.length_append, List.length_dropLast]
      omega
    · exact Nat.le_refl _
  unfold press
  split
  next => rw [line_forward]; omega
  next => rw [line_back]; omega
  next => omega
  next =>
    simp only [delete, line, List.length_append, List.length_tail]
    omega
  next => rw [line_switch]; omega
  next => exact Nat.le_succ _
  next => omega
  next => omega
  next =>
    split
    · simp only [type, line, List.length_append, List.length_singleton]
      split
      · rw [List.length_tail]
        omega
      · omega
    · exact Nat.le_succ _

/-- So a line outgrows its beginning by one character for each key at
most. -/
theorem length_run_le (prompt : Nat) (g : Gap) (keys : List Keystroke) :
    (g.run prompt keys).line.length ≤ g.line.length + keys.length := by
  induction keys generalizing g with
  | nil => exact Nat.le_refl _
  | cons k keys ih =>
      have hpress := g.length_press_le prompt k
      have hrest := ih (g.press prompt k)
      rw [List.length_cons]
      show ((g.press prompt k).run prompt keys).line.length ≤ _
      omega

end Gap

-- ========================================================== the picture

namespace LineEdit

/-- The screen and the editor are a picture of the line: the cells and the
line that is drawn are its characters, and the cursor and the index are at
the gap. On the left stands the prompt that the text began with. -/
structure Shows (text : String) (prompt : Nat) (screen : Screen)
    (e : LineEdit) (g : Gap) : Prop where
  cells : screen.cells = g.line.map ([·])
  lines : screen.status.lines = [String.ofList g.line]
  cursor : screen.status.cursorChar = g.left.length
  index : e.index = g.left.length
  start : e.start = prompt
  mode : e.mode = g.mode
  kept : text.toList.take prompt <+: g.left

/-- A turn of the editor behind a line: it goes on with the picture of a
new one, or fails because the old one has outgrown the words. -/
inductive Goes (text : String) (prompt : Nat) (old new : Gap) :
    Turn LineEdit (Option String) → Prop where
  | on {screen : Screen} {log : List Log.Record} {e : LineEdit} :
      Shows text prompt screen e new →
      Goes text prompt old new ⟨screen, log, .wait e⟩
  | outgrown {screen : Screen} {log : List Log.Record}
      {cause : Text.EditError} :
      Word.fits Word.sizeBits old.line.length = false →
      Goes text prompt old new ⟨screen, log, .failed (.edit cause)⟩

theorem flatten_cells (cs : List Char) : (cs.map ([·])).flatten = cs := by
  rw [← List.flatMap_def, List.flatMap_singleton']

variable {text : String} {prompt : Nat} {screen : Screen} {e : LineEdit}
  {g : Gap} {k : Keystroke}

/-- The text of the editor is the line. -/
theorem Shows.editText (h : Shows text prompt screen e g) :
    screen.editText = String.ofList g.line := by
  unfold Screen.editText
  rw [h.cells, flatten_cells]

theorem Shows.length_cells (h : Shows text prompt screen e g) :
    screen.cells.length = g.left.length + g.right.length := by
  rw [h.cells, List.length_map, Gap.line, List.length_append]

/-- The cells have outgrown the words just where the line has. -/
theorem Shows.fits_cells (h : Shows text prompt screen e g)
    (hfits : Word.fits Word.sizeBits screen.cells.length = false) :
    Word.fits Word.sizeBits g.line.length = false := by
  rwa [h.cells, List.length_map] at hfits

/-- The prompt is not touched where something else is on its right. -/
theorem Shows.kept_dropLast (h : Shows text prompt screen e g)
    (hlt : prompt < g.left.length) :
    text.toList.take prompt <+: g.left.dropLast := by
  refine List.prefix_of_prefix_length_le h.kept (List.dropLast_prefix _) ?_
  rw [List.length_take, List.length_dropLast]
  omega

/-- Reading a key changes nothing in the picture. -/
theorem Shows.press (h : Shows text prompt screen e g) (k : Keystroke) :
    Shows text prompt (screen.press k) e g :=
  ⟨h.cells, h.lines, h.cursor, h.index, h.start, h.mode, h.kept⟩

theorem cursorChar_cursorLeft {p : Pad} (h : 0 < p.cursorChar) :
    p.cursorLeft.cursorChar = p.cursorChar - 1 := by
  unfold Pad.cursorLeft
  rw [if_pos h]

theorem lines_cursorLeft (p : Pad) : p.cursorLeft.lines = p.lines := by
  unfold Pad.cursorLeft
  split <;> rfl

-- ============================================================= the keys

/-- RIGHT goes over a character, if there is one on the right. -/
theorem Shows.right (h : Shows text prompt screen e g) :
    Goes text prompt g g.forward (step screen e .right) := by
  have hindex := h.index
  have hlength := h.length_cells
  have hline := g.line_forward
  unfold step
  rw [if_pos rfl]
  cases hright : g.right with
  | nil =>
      have hsame : g.forward = g := by
        unfold Gap.forward
        rw [hright]
      rw [hright, List.length_nil] at hlength
      rw [if_neg (by omega), hsame]
      exact .on h
  | cons c cs =>
      have hmoved : g.forward = { g with left := g.left ++ [c], right := cs } := by
        unfold Gap.forward
        rw [hright]
      rw [hright, List.length_cons] at hlength
      rw [if_pos (by omega)]
      rw [hmoved] at hline ⊢
      refine .on ⟨?_, ?_, ?_, ?_, h.start, h.mode, ?_⟩
      · rw [hline]
        exact h.cells
      · rw [hline]
        exact h.lines
      · show screen.status.cursorChar + 1 = ((g.left ++ [c]).length : Int)
        rw [h.cursor, List.length_append]
        rfl
      · show e.index + 1 = ((g.left ++ [c]).length : Int)
        rw [hindex, List.length_append]
        rfl
      · exact List.prefix_append_of_prefix h.kept

/-- LEFT goes over a character, and stops at the prompt. -/
theorem Shows.left (h : Shows text prompt screen e g) :
    Goes text prompt g (g.back prompt) (step screen e .left) := by
  have hindex := h.index
  have hstart := h.start
  have hline := g.line_back prompt
  unfold step
  rw [if_neg (by decide), if_pos rfl]
  by_cases hlt : prompt < g.left.length
  · have hleft : (g.back prompt).left = g.left.dropLast := by
      rw [Gap.back, if_pos hlt]
    have hmode : (g.back prompt).mode = g.mode := by
      rw [Gap.back, if_pos hlt]
    have hcursor : 0 < screen.status.cursorChar := by
      rw [h.cursor]
      omega
    rw [if_pos (by omega)]
    refine .on ⟨?_, ?_, ?_, ?_, h.start, ?_, ?_⟩
    · rw [hline]
      exact h.cells
    · rw [hline]
      exact (lines_cursorLeft _).trans h.lines
    · show screen.status.cursorLeft.cursorChar = _
      rw [cursorChar_cursorLeft hcursor, h.cursor, hleft,
        List.length_dropLast]
      omega
    · show e.index - 1 = _
      rw [hindex, hleft, List.length_dropLast]
      omega
    · rw [hmode]
      exact h.mode
    · rw [hleft]
      exact h.kept_dropLast hlt
  · rw [if_neg (by omega), Gap.back, if_neg hlt]
    exact .on h

/-- What is drawn and kept once the cells are those of a new line. -/
theorem lines_setCells (screen : Screen) (cs : List Char) :
    (screen.setCells (cs.map ([·]))).status.lines = [String.ofList cs] := by
  show [String.ofList (cs.map ([·])).flatten] = _
  rw [flatten_cells]

/-- Each of the keys for it erases the character on the left, and stops at
the prompt. The cell that goes is the one before the index, so the cursor
follows. -/
theorem Shows.backspace (h : Shows text prompt screen e g)
    (hk : k ∈ Keystroke.backspaces) :
    Goes text prompt g (g.erase prompt) (step screen e k) := by
  have hindex := h.index
  have hstart := h.start
  have hlength := h.length_cells
  have hright : ¬ k = .right := by
    rintro rfl
    exact absurd hk (by decide)
  have hleft : ¬ k = .left := by
    rintro rfl
    exact absurd hk (by decide)
  unfold step Gap.erase
  rw [if_neg hright, if_neg hleft, if_pos hk]
  by_cases hlt : prompt < g.left.length
  · have hat : e.index - 1 = ((g.left.length - 1 : Nat) : Int) := by omega
    have hcursor : 0 < screen.status.cursorChar := by
      rw [h.cursor]
      omega
    have hcells : screen.cells.eraseIdx (g.left.length - 1)
        = (g.left.dropLast ++ g.right).map ([·]) := by
      rw [h.cells, Gap.line, List.map_append,
        List.eraseIdx_append_of_lt_length (by rw [List.length_map]; omega),
        List.eraseIdx_eq_dropLast (by rw [List.length_map]; omega),
        ← List.map_dropLast, ← List.map_append]
    have hthere : g.left.length - 1 < screen.cells.length := by omega
    rw [if_pos hlt, if_pos (by omega), hat]
    rcases Text.eraseAt_cases hthere with herase | ⟨hfits, cause, herase⟩
    · rw [herase, hcells]
      refine .on ⟨rfl, ?_, ?_, ?_, h.start, h.mode, h.kept_dropLast hlt⟩
      · exact (lines_cursorLeft _).trans (lines_setCells screen _)
      · show (Pad.cursorLeft _).cursorChar = (g.left.dropLast.length : Int)
        rw [cursorChar_cursorLeft (by exact hcursor), List.length_dropLast]
        show screen.status.cursorChar - 1 = _
        rw [h.cursor]
        omega
      · rw [List.length_dropLast]
    · rw [herase]
      exact .outgrown (h.fits_cells hfits)
  · rw [if_neg hlt, if_neg (by omega)]
    exact .on h

/-- DELETE takes the character on the right away, and the cursor stays. -/
theorem Shows.delete (h : Shows text prompt screen e g) :
    Goes text prompt g g.delete (step screen e .delete) := by
  have hindex := h.index
  have hlength := h.length_cells
  unfold step Gap.delete
  rw [if_neg (by decide), if_neg (by decide), if_neg (by decide), if_pos rfl]
  cases hright : g.right with
  | nil =>
      rw [hright, List.length_nil] at hlength
      rw [if_neg (by omega)]
      have hsame : { g with right := [].tail } = g := by
        rw [List.tail_nil, ← hright]
      rw [hsame]
      exact .on h
  | cons c cs =>
      rw [hright, List.length_cons] at hlength
      have hcells : screen.cells.eraseIdx g.left.length
          = (g.left ++ cs).map ([·]) := by
        rw [h.cells, Gap.line, hright, List.map_append,
          List.eraseIdx_append_of_length_le (Nat.le_of_eq (List.length_map _)),
          List.length_map, Nat.sub_self, List.map_cons,
          List.eraseIdx_cons_zero, ← List.map_append]
      have hthere : g.left.length < screen.cells.length := by omega
      rw [if_pos (by omega), hindex]
      rcases Text.eraseAt_cases hthere with herase | ⟨hfits, cause, herase⟩
      · rw [herase, hcells]
        exact .on ⟨rfl, lines_setCells screen _, h.cursor, hindex, h.start,
          h.mode, h.kept⟩
      · rw [herase]
        exact .outgrown (h.fits_cells hfits)

/-- In either mode a character that is typed goes in at the gap. -/
theorem Shows.typed_cases (h : Shows text prompt screen e g) (c : Char) :
    let edited :=
      if e.mode = .replace ∧ e.index < screen.cells.length then
        Text.replaceAt screen.cells e.index [c]
      else Text.insertAt screen.cells e.index [c]
    edited = .ok ((g.type c).line.map ([·]))
      ∨ Word.fits Word.sizeBits g.line.length = false
        ∧ ∃ cause, edited = .error cause := by
  have hlength := h.length_cells
  have hmap : screen.cells = g.left.map ([·]) ++ g.right.map ([·]) := by
    rw [h.cells, Gap.line, List.map_append]
  have htyped : (g.type c).line.map ([·])
      = g.left.map ([·]) ++ [c] :: (g.type c).right.map ([·]) := by
    show ((g.left ++ [c]) ++ (g.type c).right).map ([·]) = _
    rw [List.append_assoc, List.map_append]
    rfl
  dsimp only
  rw [h.index, h.mode]
  by_cases hreplace :
      g.mode = .replace ∧ (g.left.length : Int) < screen.cells.length
  · rw [if_pos hreplace]
    obtain ⟨hmode, hlt⟩ := hreplace
    have hthere : g.left.length < screen.cells.length := by omega
    have hcells : screen.cells.set g.left.length [c]
        = (g.type c).line.map ([·]) := by
      have hrest : (g.type c).right = g.right.tail := if_pos hmode
      rw [htyped, hrest, hmap,
        List.set_append_right _ _ (Nat.le_of_eq (List.length_map _)),
        List.length_map, Nat.sub_self]
      cases hright : g.right with
      | nil =>
          rw [hright, List.length_nil] at hlength
          omega
      | cons d ds => rfl
    rw [← hcells]
    rcases Text.replaceAt_cases hthere [c] with hedit | ⟨hfits, hedit⟩
    · exact Or.inl hedit
    · exact Or.inr ⟨h.fits_cells hfits, hedit⟩
  · rw [if_neg hreplace]
    have hthere : g.left.length ≤ screen.cells.length := by omega
    -- at the end of the line there is nothing to replace
    have hrest : (g.type c).right = g.right := by
      unfold Gap.type
      dsimp only
      by_cases hmode : g.mode = .replace
      · have hnil : g.right.length = 0 := by
          have := not_and.1 hreplace hmode
          omega
        rw [List.length_eq_zero_iff.1 hnil]
        exact ite_self _
      · exact if_neg hmode
    have hcells : screen.cells.take g.left.length
          ++ [c] :: screen.cells.drop g.left.length
        = (g.type c).line.map ([·]) := by
      rw [htyped, hrest, hmap, List.take_left' (List.length_map _),
        List.drop_left' (List.length_map _)]
    rw [← hcells]
    rcases Text.insertAt_cases hthere [c] with hedit | ⟨hfits, hedit⟩
    · exact Or.inl hedit
    · exact Or.inr ⟨h.fits_cells hfits, hedit⟩

/-- On the line, a character that is no backspace is typed if it can be
printed, and else ignored. -/
theorem press_char {c : Char} (hc : .char c ∉ Keystroke.backspaces) :
    g.press prompt (.char c)
      = if Text.isPrintable c then g.type c else g := by
  unfold Gap.press
  split
  next h => cases h
  next h => cases h
  next h => cases h
  next h => cases h
  next h => cases h
  next h => cases h
  next h => cases h; exact absurd (by decide) hc
  next h => cases h; exact absurd (by decide) hc
  next h => cases h; rfl

/-- A character does in the editor what it does on the line. In replace mode
it takes the place of the one on the right, but at the end there is none,
and it is inserted there. -/
theorem Shows.char (h : Shows text prompt screen e g) {c : Char}
    (hback : .char c ∉ Keystroke.backspaces)
    (hescape : .char c ≠ Keystroke.escape)
    (henter : .char c ≠ Keystroke.enter) :
    Goes text prompt g (g.press prompt (.char c)) (step screen e (.char c)) := by
  rw [press_char hback, step_char hback hescape henter]
  by_cases hc : Text.isPrintable c = true
  · rw [if_pos hc, if_pos hc]
    unfold Screen.type
    rcases h.typed_cases c with hedit | ⟨hfits, cause, hedit⟩
    · dsimp only at hedit ⊢
      rw [hedit]
      refine .on ⟨rfl, lines_setCells screen _, ?_, ?_, h.start, h.mode, ?_⟩
      · show screen.status.cursorChar + 1 = ((g.left ++ [c]).length : Int)
        rw [h.cursor, List.length_append]
        rfl
      · show e.index + 1 = ((g.left ++ [c]).length : Int)
        rw [h.index, List.length_append]
        rfl
      · exact List.prefix_append_of_prefix h.kept
    · dsimp only at hedit ⊢
      rw [hedit]
      exact .outgrown hfits
  · rw [if_neg hc, if_neg hc]
    exact .on h

/-- The insert key changes the mode of the editor as it does that of the
line, and nothing else. -/
theorem Shows.switch (h : Shows text prompt screen e g) :
    Goes text prompt g g.switch (step screen e .insert) := by
  have hmode := h.mode
  unfold Gap.switch
  cases hold : g.mode with
  | insert =>
      refine .on ⟨h.cells, h.lines, h.cursor, h.index, h.start, ?_, h.kept⟩
      show e.mode.toggle = .replace
      rw [hmode, hold]
      rfl
  | replace =>
      refine .on ⟨h.cells, h.lines, h.cursor, h.index, h.start, ?_, h.kept⟩
      show e.mode.toggle = .insert
      rw [hmode, hold]
      rfl

/-- A key keeps the picture, unless it ends the editor. -/
theorem Shows.step (h : Shows text prompt screen e g)
    (hescape : k ≠ .escape) (henter : k ≠ .enter) :
    Goes text prompt g (g.press prompt k) (LineEdit.step screen e k) := by
  by_cases hback : k ∈ Keystroke.backspaces
  · have hpress : g.press prompt k = g.erase prompt := by
      unfold Keystroke.backspaces at hback
      simp only [List.mem_cons, List.not_mem_nil, or_false] at hback
      rcases hback with rfl | rfl | rfl <;> rfl
    rw [hpress]
    exact h.backspace hback
  · cases k with
    | char c => exact h.char hback hescape henter
    | named name =>
        unfold Gap.press
        split
        next hk => cases hk; exact h.right
        next hk => cases hk; exact h.left
        next hk => cases hk; exact absurd (by decide) hback
        next hk => cases hk; exact h.delete
        next hk => cases hk; exact h.switch
        next hright hleft _ hdelete hinsert hk =>
          cases hk
          have hne (other : String) (hother : name = other → False) :
              ¬ Keystroke.named name = .named other := by
            intro hname
            injection hname with hname
            exact hother hname
          have hright : ¬ Keystroke.named name = .right := hne _ hright
          have hleft : ¬ Keystroke.named name = .left := hne _ hleft
          have hdelete : ¬ Keystroke.named name = .delete := hne _ hdelete
          have hinsert : ¬ Keystroke.named name = .insert := hne _ hinsert
          unfold LineEdit.step
          rw [if_neg hright, if_neg hleft, if_neg hback, if_neg hdelete,
            if_neg hinsert, if_neg hescape, if_neg henter]
          exact .on h
        next hk => cases hk
        next hk => cases hk
        next hk => cases hk

-- ============================================================= the runs

/-- The editor begins with the picture of the text, if it can be drawn. -/
theorem begin_cases (screen : Screen) {index : Nat} (hprompt : prompt ≤ index)
    (hindex : index ≤ text.length) :
    (∃ screen' cause, begin screen text index prompt
        = .failed screen' (.room cause))
      ∨ ∃ screen', begin screen text index prompt
            = .wait screen' ⟨index, prompt, .insert⟩
          ∧ Shows text prompt screen' ⟨index, prompt, .insert⟩
              (.start text index) := by
  have hleft : (text.toList.take index).length = index := by
    rw [List.length_take, String.length_toList]
    omega
  have hline : (Gap.start text index).line = text.toList :=
    List.take_append_drop _ _
  unfold begin
  dsimp only
  split
  next cause _ => exact Or.inl ⟨_, cause, rfl⟩
  next =>
    refine Or.inr ⟨_, rfl, ?_, ?_, ?_, ?_, rfl, rfl, ?_⟩
    · rw [hline]
      rfl
    · rw [hline]
      exact lines_setCells screen _
    · show (index : Int) = ((text.toList.take index).length : Int)
      rw [hleft]
    · show (index : Int) = ((text.toList.take index).length : Int)
      rw [hleft]
    · show text.toList.take prompt <+: text.toList.take index
      refine List.prefix_take_iff.2 ⟨List.take_prefix _ _, ?_⟩
      rw [List.length_take]
      omega

/-- Wherever the editor waits it shows the line that the keys have made of
the text. -/
theorem shows_run (screen : Screen) {index : Nat} (hprompt : prompt ≤ index)
    (hindex : index ≤ text.length) (keys : List Keystroke)
    (hwait : (Turn.run step (begin screen text index prompt) keys).1.next
      = .wait e) :
    Shows text prompt
      (Turn.run step (begin screen text index prompt) keys).1.screen e
      ((Gap.start text index).run prompt keys) := by
  induction keys using List.reverseRecOn generalizing e with
  | nil =>
      rcases begin_cases screen hprompt hindex with
        ⟨screen', cause, hbegin⟩ | ⟨screen', hbegin, hshows⟩
      · rw [hbegin] at hwait
        cases hwait
      · rw [hbegin] at hwait ⊢
        cases hwait
        exact hshows
  | append_singleton keys k ih =>
      obtain ⟨e₀, hwait₀⟩ := Turn.exists_wait_of_concat hwait
      have hshows := ih hwait₀
      rw [Turn.run_concat, hwait₀] at hwait ⊢
      dsimp only at hwait ⊢
      have hescape : k ≠ .escape := by
        rintro rfl
        cases hwait
      have henter : k ≠ .enter := by
        rintro rfl
        cases hwait
      have hgoes := (hshows.press k).step hescape henter
      generalize LineEdit.step _ e₀ k = turn at hwait hgoes ⊢
      rw [Gap.run, List.foldl_append]
      cases hgoes with
      | on hnew =>
          cases hwait
          exact hnew
      | outgrown _ => cases hwait

/-- The editor waits as long as no key ends it, on a screen that can be
drawn and with a line that has not outgrown the words. -/
theorem waits_run {screen : Screen} {index : Nat} (hprompt : prompt ≤ index)
    (hindex : index ≤ text.length)
    (hclear : screen.status.clearError? = none) {keys : List Keystroke}
    (hfits : Word.fits Word.sizeBits (text.length + keys.length : Nat) = true)
    (hkeys : ∀ k ∈ keys, k ≠ .escape ∧ k ≠ .enter) :
    ∃ e, (Turn.run step (begin screen text index prompt) keys).1.next
      = .wait e := by
  induction keys using List.reverseRecOn with
  | nil =>
      obtain ⟨screen', -, -, hbegin⟩ := begin_wait hclear text index prompt
      rw [hbegin]
      exact ⟨_, rfl⟩
  | append_singleton keys k ih =>
      have hlength : text.length + keys.length
          ≤ text.length + (keys ++ [k]).length := by
        rw [List.length_append]
        omega
      obtain ⟨e, hwait⟩ := ih (Word.fits_mono hlength hfits)
        fun k' hk' => hkeys k' (List.mem_append_left _ hk')
      have hshows := shows_run screen hprompt hindex keys hwait
      obtain ⟨hescape, henter⟩ := hkeys k (by simp)
      have hgoes := (hshows.press k).step hescape henter
      rw [Turn.run_concat, hwait]
      dsimp only
      generalize LineEdit.step _ e k = turn at hgoes ⊢
      cases hgoes with
      | on _ => exact ⟨_, rfl⟩
      | outgrown hgrown =>
          -- the line is no longer than the text with all the keys
          have hline := (Gap.start text index).length_run_le prompt keys
          have hstart : (Gap.start text index).line.length = text.length := by
            rw [← String.length_toList]
            exact congrArg List.length (List.take_append_drop _ _)
          rw [Word.fits_mono (by omega) hfits] at hgrown
          cases hgrown

/-- The editor is a line with a gap. Whatever keys have been pressed, where
it waits for the next one its index is inside the text, behind the prompt,
and is the cursor of the pad; the pad shows the text, which begins with the
prompt; and the text on both sides of the index, with the mode, is the line
that the keys make of the text at the start. ENTER ends with the whole line
and ESC with nothing. On a screen that can be drawn the editor waits until
one of the two is pressed, as long as the text can be counted. -/
theorem edit_refines_gap (screen : Screen) (text : String)
    {prompt index : Nat} (hprompt : prompt ≤ index)
    (hindex : index ≤ text.length) (keys : List Keystroke) :
    let edit (keys : List Keystroke) :=
      (Turn.run step (begin screen text index prompt) keys).1
    let shown := (edit keys).screen
    let g := (Gap.start text index).run prompt keys
    (∀ e, (edit keys).next = .wait e →
      (prompt ≤ e.index ∧ e.index ≤ shown.cells.length)
      ∧ shown.status.cursorChar = e.index
      ∧ shown.cells = shown.editText.toList.map ([·])
      ∧ shown.status.lines = [shown.editText]
      ∧ text.toList.take prompt <+: shown.editText.toList
      ∧ shown.editText.toList.take e.index.toNat = g.left
      ∧ shown.editText.toList.drop e.index.toNat = g.right
      ∧ e.mode = g.mode
      ∧ (edit (keys ++ [.enter])).next
          = .done (some (String.ofList (g.left ++ g.right)))
      ∧ (edit (keys ++ [.escape])).next = .done none)
    ∧ (screen.status.clearError? = none →
        Word.fits Word.sizeBits (text.length + keys.length : Nat) = true →
        (∀ k ∈ keys, k ≠ .escape ∧ k ≠ .enter) →
        ∃ e, (edit keys).next = .wait e) := by
  intro edit shown g
  refine ⟨?_, fun hclear hfits hkeys => waits_run hprompt hindex hclear hfits hkeys⟩
  intro e hwait
  have h : Shows text prompt shown e g :=
    shows_run screen hprompt hindex keys hwait
  have hat : e.index.toNat = g.left.length := by
    rw [h.index, Int.toNat_natCast]
  have htext : shown.editText.toList = g.left ++ g.right := by
    rw [h.editText, String.toList_ofList, Gap.line]
  have hbehind : prompt ≤ g.left.length := by
    have := h.kept.length_le
    rw [List.length_take, String.length_toList] at this
    omega
  refine ⟨⟨?_, ?_⟩, ?_, ?_, ?_, ?_, ?_, ?_, h.mode, ?_, ?_⟩
  · rw [h.index]
    omega
  · rw [h.index, h.length_cells]
    omega
  · rw [h.cursor, h.index]
  · rw [htext]
    exact h.cells
  · rw [h.editText]
    exact h.lines
  · rw [htext]
    exact List.prefix_append_of_prefix h.kept
  · rw [htext, hat]
    exact List.take_left
  · rw [htext, hat]
    exact List.drop_left
  · show (Turn.run step _ (keys ++ [.enter])).1.next = _
    rw [Turn.run_concat, show (Turn.run step _ keys).1.next = _ from hwait]
    show Next.done (some shown.editText) = _
    rw [h.editText]
    rfl
  · show (Turn.run step _ (keys ++ [.escape])).1.next = _
    rw [Turn.run_concat, show (Turn.run step _ keys).1.next = _ from hwait]
    rfl

theorem edits_of_all {keys : List Keystroke}
    (h : keys.all (fun k => k ≠ .escape ∧ k ≠ .enter) = true) :
    ∀ k ∈ keys, k ≠ .escape ∧ k ≠ .enter :=
  fun k hk => of_decide_eq_true (List.all_eq_true.1 h k hk)

/-- Keys that run against the prompt twice and take an `X` out again. Then
`C` comes in the place of `B`, `D` at the end, and, with the insert key
pressed once more, `E` in front of `D`. -/
def overtyping : List Keystroke :=
  [.left, .named "KEY_BACKSPACE", .char 'A', .char 'X', .char 'B', .left,
   .left, .delete, .insert, .char 'C', .char 'D', .insert, .left, .char 'E',
   .named "KEY_F1"]

/-- The prompt is as it was, and what was typed stands behind it: `B` is
replaced and `D` is not, so both changes of the mode are seen. -/
theorem edit_refines_gap_overtyped :
    6 ≤ "Goal: ".length
      ∧ (Turn.run step (begin (Screen.start 8 40) "Goal: " (6 : Nat) (6 : Nat))
          (overtyping ++ [.enter])).1.next = .done (some "Goal: ACED") := by
  obtain ⟨hshows, hwaits⟩ := edit_refines_gap (Screen.start 8 40) "Goal: "
    (Nat.le_refl 6) (by decide) overtyping
  obtain ⟨e, hwait⟩ := hwaits rfl (fits_of_le (by decide))
    (edits_of_all (by decide))
  obtain ⟨-, -, -, -, -, -, -, -, henter, -⟩ := hshows e hwait
  have hline : ((Gap.start "Goal: " 6).run 6 overtyping).left
      ++ ((Gap.start "Goal: " 6).run 6 overtyping).right
      = "Goal: ACED".toList := by decide +kernel
  rw [hline, String.ofList_toList] at henter
  exact ⟨by decide, henter⟩

end LineEdit

end Console

end Deduction
