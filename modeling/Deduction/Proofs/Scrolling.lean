/-
The cursor of the line editor is on the screen, and on its character.

The text in the status bar may be longer than the bar. The view goes along
with the cursor by one character at a time, is set by another rule when
the editor begins, and stays where it is when characters are taken away. In
all of this the cursor never leaves it (`Pad.Follows`).

What the user sees is what was drawn last. A key either draws the bar
again as it then is or changes nothing that is drawn (`Touched`), so the
bar on the screen is always up to date (`UpToDate`): its line is the part
of the text that is in view, and the terminal's cursor is on the character
at the editor's index.
-/
import Deduction.Proofs.Editing
import Deduction.Proofs.Pads

namespace Deduction.Console

-- ============================================================== the view

namespace Pad

/-- A status bar: a single row without border, which shows no selection
and no line but the first. -/
structure IsBar (width : Int) (p : Pad) : Prop where
  mount : p.mount = (.status, 1, width, false, false)
  top : p.scrollLine = 0
  line : p.cursorLine = 0

/-- A status bar of which the view follows the cursor, up to the last
column but one: the last stays free. -/
structure Follows (width : Int) (p : Pad) : Prop where
  bar : p.IsBar width
  inView : p.InView
  edge : p.cursorChar ≤ p.scrollChar + width - 2

/-- What the editor does with the pad of the status bar. -/
inductive Turned (p : Pad) : Pad → Prop where
  | stay (lines : List String) : Turned p { p with lines := lines }
  | right (lines : List String) :
      Turned p (cursorRight { p with lines := lines })
  | left (lines : List String) :
      Turned p (cursorLeft { p with lines := lines })

variable {width : Int} {p q : Pad}

/-- A new screen has a status bar of its own width. -/
theorem isBar_start (lines cols : Int) :
    (Screen.start lines cols).status.IsBar cols :=
  ⟨rfl, rfl, rfl⟩

theorem IsBar.mount_eq (h : IsBar width p) :
    p.window = .status ∧ p.height = 1 ∧ p.width = width
      ∧ p.bordered = false ∧ p.highlight = false := by
  have hmount := h.mount
  simp only [Pad.mount, Prod.mk.injEq] at hmount
  exact hmount

theorem IsBar.room_eq (h : IsBar width p) :
    room p.width p.bordered = width - 1 := by
  obtain ⟨-, -, hw, hb, -⟩ := h.mount_eq
  rw [hw, hb]
  show width - 2 * 0 - 1 = _
  omega

/-- A place of the bar shows a character of its line. -/
theorem IsBar.cell_eq (h : IsBar width p) {text : String}
    (hlines : p.lines = [text]) (x : Nat) :
    p.cell 0 x = (text.toList[p.scrollChar.toNat + x]?).getD ' ' := by
  unfold cell
  rw [h.top, hlines]
  rfl

/-- The bar can be cleared unless it is too long. -/
theorem IsBar.clearError?_eq_none_iff (h : IsBar width p) (hwidth : 2 ≤ width) :
    p.clearError? = none ↔ width - 1 ≤ Text.longest := by
  rw [clearError?, Text.blankError?_eq_none_iff, h.room_eq,
    Text.fillError?_eq_none_iff (by omega)]

/-- A bar that was scrolled sideways is still a bar. -/
theorem IsBar.turned (h : IsBar width p) (hturned : Turned p q) :
    IsBar width q := by
  cases hturned with
  | stay lines => exact ⟨h.mount, h.top, h.line⟩
  | right lines => exact ⟨h.mount, h.top, h.line⟩
  | left lines =>
      unfold cursorLeft
      split
      · exact ⟨h.mount, h.top, h.line⟩
      · exact ⟨h.mount, h.top, h.line⟩

/-- What is written does not matter to where the window is scrolled. -/
theorem Follows.setLines (h : Follows width p) (lines : List String) :
    Follows width { p with lines := lines } := by
  refine ⟨h.bar.turned (.stay lines), ?_, h.edge⟩
  have hline : p.cursorLine ≤ max 0 ((lines.length : Int) - 1) := by
    rw [h.bar.line]
    exact Int.le_max_left _ _
  exact { h.inView with le_last := hline }

/-- The view that the editor begins with has the cursor in it. -/
theorem IsBar.follows (h : IsBar width p) (hwidth : 2 ≤ width)
    (lines : List String) (index : Nat) :
    Follows width { p with
      lines := lines
      cursorChar := index
      scrollChar := max 0 (index - p.width + 2) } := by
  obtain ⟨-, hheight, hw, -, -⟩ := h.mount_eq
  have htop := h.top
  have hline := h.line
  have hedge : (index : Int) ≤ max 0 (index - p.width + 2) + width - 2 := by
    omega
  exact
    { bar := ⟨h.mount, h.top, h.line⟩
      inView :=
        { nonneg := Int.le_of_eq hline.symm
          le_last := hline.trans_le (Int.le_max_left _ _)
          scroll_nonneg := Int.le_of_eq htop.symm
          scroll_le := Int.le_of_eq (htop.trans hline.symm)
          lt_scroll := by
            show p.cursorLine < p.scrollLine + p.height
            omega
          scrollChar_nonneg := Int.le_max_left _ _
          scrollChar_le := by
            show max 0 ((index : Int) - p.width + 2) ≤ index
            omega }
      edge := hedge }

/-- The view follows the cursor, whatever the editor does. -/
theorem Follows.turned (h : Follows width p) (hturned : Turned p q) :
    Follows width q := by
  cases hturned with
  | stay lines => exact h.setLines lines
  | right lines =>
      have hset := h.setLines lines
      refine ⟨hset.bar.turned (.right lines), hset.inView.cursorRight, ?_⟩
      have hedge := h.edge
      obtain ⟨-, -, hw, -, -⟩ := h.bar.mount_eq
      simp only [cursorRight]
      split <;> omega
  | left lines =>
      have hset := h.setLines lines
      refine ⟨hset.bar.turned (.left lines), hset.inView.cursorLeft, ?_⟩
      have hedge := h.edge
      have hle := h.inView.scrollChar_le
      simp only [cursorLeft]
      split
      · dsimp only
        split <;> omega
      · exact hedge

/-- What is drawn of the bar: its line, the place of the cursor, and
nothing else. -/
theorem Follows.refresh_eq (h : Follows width p) {text : String}
    (hlines : p.lines = [text]) (hroom : width - 1 ≤ Text.longest) :
    p.refresh
      = [.write .status 0 0 (p.row 0) (some .normal),
         .move .status 0 (p.cursorChar - p.scrollChar), .refresh .status] := by
  have hle := h.inView.scrollChar_le
  have hedge := h.edge
  obtain ⟨hwindow, hheight, -, hb, hhighlight⟩ := h.bar.mount_eq
  have hfits : 0 ≤ room p.width p.bordered := by
    rw [h.bar.room_eq]
    omega
  have herror : p.refreshError? = none := by
    rw [refreshError?_eq_none_iff (by omega) hfits, h.bar.room_eq]
    exact hroom
  have hshade : p.shade? 0 = some .normal := by
    rw [shade?, h.bar.top, hlines, hhighlight]
    rfl
  have hplace : p.place = .move .status 0 (p.cursorChar - p.scrollChar) := by
    rw [place, hhighlight, hwindow, hb]
    show Call.move .status 0 (p.cursorChar - p.scrollChar + 0) = _
    rw [Int.add_zero]
  rw [Pad.refresh_eq h.inView.scroll_nonneg h.inView.scrollChar_nonneg hfits
    herror, hplace, hwindow, hheight, hb]
  show [Call.write .status 0 0 (p.row 0) (p.shade? 0), _, _] = _
  rw [hshade]

end Pad

-- ====================================================== what is on screen

/-- Whether a call writes a line to a window. -/
def Call.writesTo (w : Window) : Call → Bool
  | .write v _ _ _ _ => v = w
  | _ => false

/-- Whether a call puts the cursor into a window. -/
def Call.movesIn (w : Window) : Call → Bool
  | .move v _ _ => v = w
  | _ => false

/-- What a call leaves at a place of a window, if it writes there. -/
def Call.cell? (w : Window) (y x : Int) : Call → Option Char
  | .write v row column text _ =>
    if v = w ∧ row = y ∧ column ≤ x then text[(x - column).toNat]? else none
  | _ => none

namespace Screen

/-- The last of the calls of some kind. -/
def last? (s : Screen) (kind : Call → Bool) : Option Call :=
  (s.calls.filter kind).getLast?

/-- What there is at a place of a window: the character that was written
there last. -/
def cell? (s : Screen) (w : Window) (y x : Int) : Option Char :=
  (s.calls.filterMap (Call.cell? w y x)).getLast?

/-- The bar on the screen is the status bar as it is, with the cursor in
view. Since it was drawn, keys have been read and nothing else. -/
structure UpToDate (width : Int) (s : Screen) : Prop where
  follows : s.status.Follows width
  room : width - 1 ≤ Text.longest
  drawn : ∃ earlier keys, s.calls
    = earlier ++ (s.status.refresh ++ List.map Call.key keys)

variable {width : Int} {s : Screen}

theorem UpToDate.press (h : UpToDate width s) (k : Keystroke) :
    UpToDate width (s.press k) := by
  obtain ⟨earlier, keys, hcalls⟩ := h.drawn
  refine ⟨h.follows, h.room, earlier, keys ++ [k], ?_⟩
  show s.calls ++ [.key k] = earlier ++ (s.status.refresh ++ _)
  rw [hcalls, List.map_append]
  simp only [List.append_assoc, List.map_cons, List.map_nil]

/-- What the user sees: the line of the bar, with the cursor on it. -/
theorem UpToDate.sees (h : UpToDate width s) {text : String}
    (hlines : s.status.lines = [text]) :
    s.last? (·.writesTo .status)
        = some (.write .status 0 0 (s.status.row 0) (some .normal))
      ∧ s.last? (·.movesIn .status)
        = some (.move .status 0 (s.status.cursorChar - s.status.scrollChar))
      ∧ ∀ x : Nat, (x : Int) < width - 1 →
        s.cell? .status 0 x = some (s.status.cell 0 x) := by
  obtain ⟨earlier, keys, hcalls⟩ := h.drawn
  rw [h.follows.refresh_eq hlines h.room] at hcalls
  -- keys write nothing and leave the cursor where it is
  have hwrite : (List.map Call.key keys).filter (·.writesTo .status) = [] := by
    simp [Call.writesTo]
  have hmove : (List.map Call.key keys).filter (·.movesIn .status) = [] := by
    simp [Call.movesIn]
  have hcell (x : Int) :
      (List.map Call.key keys).filterMap (Call.cell? .status 0 x) = [] := by
    simp [Call.cell?]
  refine ⟨?_, ?_, ?_⟩
  · unfold last?
    rw [hcalls, List.filter_append, List.filter_append, hwrite]
    simp [Call.writesTo]
  · unfold last?
    rw [hcalls, List.filter_append, List.filter_append, hmove]
    simp [Call.movesIn]
  · intro x hx
    have hrow : (s.status.row 0)[x]? = some (s.status.cell 0 x) := by
      rw [Pad.row, List.getElem?_map, List.getElem?_range]
      · rfl
      · rw [h.follows.bar.room_eq]
        omega
    unfold cell?
    rw [hcalls, List.filterMap_append, List.filterMap_append, hcell]
    simp [Call.cell?, List.filterMap_cons, hrow]

end Screen

-- ============================================================== the keys

namespace LineEdit

open Screen (UpToDate)

/-- What a turn of the editor makes of the screen: nothing, or the bar is
drawn again with the pad turned, or its line is taken away at the end. -/
inductive Touched (screen : Screen) : Turn LineEdit (Option String) → Prop where
  | kept {log : List Log.Record} {next : Next LineEdit (Option String)} :
      Touched screen ⟨screen, log, next⟩
  | drawn {new : Screen} {log : List Log.Record} {e : LineEdit} :
      screen.status.Turned new.status →
      new.calls = screen.calls ++ new.status.refresh →
      Touched screen ⟨new, log, .wait e⟩
  | left {log : List Log.Record} {result : Option String} :
      Touched screen ⟨leave screen, log, .done result⟩

/-- Every key of the line editor leaves the screen alone, or draws the bar
after at most one move of the cursor, or ends the editor. The cases are
those of the editor, key by key; they differ in what is done to the cells,
but that does not matter to the bar. -/
theorem touched_step (screen : Screen) (e : LineEdit) (k : Keystroke) :
    Touched screen (step screen e k) := by
  unfold step
  split
  next =>
    split
    next => exact .drawn (.right _) rfl
    next => exact .kept
  next =>
  split
  next =>
    split
    next => exact .drawn (.left _) rfl
    next => exact .kept
  next =>
  split
  next =>
    split
    next =>
      split
      next => exact .kept
      next => exact .drawn (.left _) rfl
    next => exact .kept
  next =>
  split
  next =>
    split
    next =>
      split
      next => exact .kept
      next => exact .drawn (.stay _) rfl
    next => exact .kept
  next =>
  split
  next => exact .kept
  next =>
  split
  next => exact .left
  next =>
  split
  next => exact .left
  next =>
  split
  next c =>
    split
    next =>
      split
      next => exact .kept
      next new htype =>
        obtain ⟨cells, rfl⟩ := Screen.exists_cells_of_type htype
        exact .drawn (.right _) rfl
    next => exact .kept
  next => exact .kept

variable {width : Int} {screen : Screen} {turn : Turn LineEdit (Option String)}

theorem Touched.isBar (h : Touched screen turn)
    (hbar : screen.status.IsBar width) : turn.screen.status.IsBar width := by
  cases h with
  | kept => exact hbar
  | drawn hturned _ => exact hbar.turned hturned
  | left => exact hbar

/-- A key that does not end the editor keeps the bar up to date. -/
theorem Touched.upToDate (h : Touched screen turn)
    (hscreen : UpToDate width screen) {e : LineEdit}
    (hwait : turn.next = .wait e) : UpToDate width turn.screen := by
  cases h with
  | kept => exact hscreen
  | drawn hturned hcalls =>
      refine ⟨hscreen.follows.turned hturned, hscreen.room, screen.calls, [], ?_⟩
      rw [List.map_nil, List.append_nil]
      exact hcalls
  | left => cases hwait

-- ============================================================== the runs

/-- The line editor begins on a bar. -/
theorem isBar_begin (hbar : screen.status.IsBar width) (text : String)
    (index prompt : Int) :
    (begin screen text index prompt).screen.status.IsBar width := by
  unfold begin
  dsimp only
  split
  · exact ⟨hbar.mount, hbar.top, hbar.line⟩
  · exact ⟨hbar.mount, hbar.top, hbar.line⟩

/-- It begins up to date: the text is written, the cursor is moved to its
place, and the bar is drawn. -/
theorem upToDate_begin (hwidth : 2 ≤ width)
    (hbar : screen.status.IsBar width) (text : String) (index : Nat)
    (prompt : Int) {e : LineEdit}
    (hwait : (begin screen text index prompt).next = .wait e) :
    UpToDate width (begin screen text index prompt).screen := by
  have hfollows := hbar.follows hwidth
    [String.ofList (text.toList.map ([·])).flatten] index
  obtain ⟨-, hheight, -, -, -⟩ := hbar.mount_eq
  have hroom := hfollows.bar.room_eq
  unfold begin at hwait ⊢
  dsimp only at hwait ⊢
  split at hwait
  next => cases hwait
  next herror =>
    refine ⟨hfollows, ?_, screen.calls, [], ?_⟩
    · rw [← hroom]
      refine (Pad.refreshError?_eq_none_iff ?_ ?_).1 herror
      · exact Int.le_of_eq hheight.symm
      · omega
    · rw [List.map_nil, List.append_nil]
      rfl

/-- Wherever the editor waits the bar on the screen is up to date. -/
theorem upToDate_run (hwidth : 2 ≤ width) (hbar : screen.status.IsBar width)
    (text : String) (index : Nat) (prompt : Int) (keys : List Keystroke)
    {e : LineEdit}
    (hwait : (Turn.run step (begin screen text index prompt) keys).1.next
      = .wait e) :
    UpToDate width
      (Turn.run step (begin screen text index prompt) keys).1.screen := by
  refine Turn.run_invariant
    (fun turn => ∀ e, turn.next = .wait e → UpToDate width turn.screen)
    ?_ ?_ keys e hwait
  · intro s log state k h e hwait
    exact (touched_step _ state k).upToDate ((h state rfl).press k) hwait
  · intro e hwait
    exact upToDate_begin hwidth hbar text index prompt hwait

/-- The status bar stays one, also when the editor ends. -/
theorem isBar_run (hbar : screen.status.IsBar width) (text : String)
    (index prompt : Int) (keys : List Keystroke) :
    (Turn.run step (begin screen text index prompt)
      keys).1.screen.status.IsBar width := by
  refine Turn.run_invariant (fun turn => turn.screen.status.IsBar width)
    ?_ (isBar_begin hbar text index prompt) keys
  intro s log state k h
  exact (touched_step (s.press k) state k).isBar h

/-- The cursor of the editor is on the screen, and on its character.
Wherever a key is awaited the cursor is in view. The line drawn last fills
the bar, up to the last column, with the part of the text that is in view
and blanks behind it. The terminal's cursor was last put where the
character at the index is, or a blank behind the text. On a bar that can be
drawn the editor waits until it is ended, as long as the text can be
counted, and it leaves a bar that can be used again. -/
theorem cursor_in_view (screen : Screen) {width : Int} (hwidth : 2 ≤ width)
    (hbar : screen.status.IsBar width) (text : String) {prompt index : Nat}
    (hprompt : prompt ≤ index) (hindex : index ≤ text.length)
    (keys : List Keystroke) :
    let edit := (Turn.run step (begin screen text index prompt) keys).1
    let shown := edit.screen
    let scroll := shown.status.scrollChar
    let cursor := shown.status.cursorChar
    (∀ e, edit.next = .wait e →
      (0 ≤ scroll ∧ scroll ≤ cursor ∧ cursor ≤ scroll + width - 2)
      ∧ (∃ drawn, shown.last? (·.writesTo .status)
            = some (.write .status 0 0 drawn (some .normal))
          ∧ (drawn.length : Int) = width - 1
          ∧ ∀ x < drawn.length, drawn[x]?
            = some ((shown.editText.toList[scroll.toNat + x]?).getD ' '))
      ∧ shown.last? (·.movesIn .status)
        = some (.move .status 0 (cursor - scroll))
      ∧ shown.cell? .status 0 (cursor - scroll)
        = some ((shown.editText.toList[e.index.toNat]?).getD ' '))
    ∧ (width - 1 ≤ Text.longest →
        Word.fits Word.sizeBits (text.length + keys.length : Nat) = true →
        (∀ k ∈ keys, k ≠ .escape ∧ k ≠ .enter) → ∃ e, edit.next = .wait e)
    ∧ shown.status.IsBar width := by
  intro edit shown scroll cursor
  refine ⟨?_, ?_, isBar_run hbar text index prompt keys⟩
  · intro e hwait
    have hshows := shows_run screen hprompt hindex keys hwait
    have hnew : UpToDate width shown :=
      upToDate_run hwidth hbar text index prompt keys hwait
    have hlines : shown.status.lines = [shown.editText] := by
      rw [hshows.editText]
      exact hshows.lines
    have hcell (x : Nat) : shown.status.cell 0 x
        = (shown.editText.toList[scroll.toNat + x]?).getD ' ' :=
      hnew.follows.bar.cell_eq hlines x
    have hscroll : 0 ≤ scroll := hnew.follows.inView.scrollChar_nonneg
    have hle : scroll ≤ cursor := hnew.follows.inView.scrollChar_le
    have hedge : cursor ≤ scroll + width - 2 := hnew.follows.edge
    have hroom := hnew.follows.bar.room_eq
    have hcursor : cursor = e.index := by
      rw [hshows.index]
      exact hshows.cursor
    obtain ⟨hwrite, hmove, hsees⟩ := hnew.sees hlines
    refine ⟨⟨hscroll, hle, hedge⟩, ⟨_, hwrite, ?_, ?_⟩, hmove, ?_⟩
    · rw [Pad.length_row (by omega), hroom]
    · intro x hx
      rw [Pad.row, List.length_map, List.length_range] at hx
      rw [← hcell, Pad.row, List.getElem?_map, List.getElem?_range hx]
      rfl
    · -- the column of the cursor and the scroll add up to the index
      have hcolumn : cursor - scroll = ((cursor - scroll).toNat : Int) := by
        omega
      have hat : scroll.toNat + (cursor - scroll).toNat = e.index.toNat := by
        omega
      rw [hcolumn, hsees _ (by omega), hcell, hat]
  · intro hroom hfits hkeys
    have hclear := (hbar.clearError?_eq_none_iff hwidth).2 hroom
    exact waits_run hprompt hindex hclear hfits hkeys

/-- Two steps to the left in `ABC`, and the `B` is taken out. -/
def stepping : List Keystroke := [.left, .left, .delete]

/-- In a bar with room for one character that is the character under the
cursor. -/
theorem cursor_in_view_narrow :
    (2 : Int) ≤ 2 ∧ 3 ≤ "ABC".length
      ∧ let shown := (Turn.run step
            (begin (Screen.start 8 2) "ABC" (3 : Nat) (0 : Nat))
            stepping).1.screen
        shown.last? (·.writesTo .status)
            = some (.write .status 0 0 ['C'] (some .normal))
          ∧ shown.last? (·.movesIn .status) = some (.move .status 0 0)
          ∧ shown.cell? .status 0 0 = some 'C' := by
  have hbar : (Screen.start 8 2).status.IsBar 2 := Pad.isBar_start 8 2
  have hlength : 3 ≤ "ABC".length := by decide
  obtain ⟨hsees, hwaits, -⟩ := cursor_in_view (Screen.start 8 2)
    (Int.le_refl 2) hbar "ABC" (Nat.zero_le 3) hlength stepping
  obtain ⟨e, hwait⟩ := hwaits (by decide) (fits_of_le (by decide))
    (edits_of_all (by decide))
  obtain ⟨⟨-, hle, hedge⟩, ⟨drawn, hwrite, hwide, hdrawn⟩, hmove, hcell⟩ :=
    hsees e hwait
  -- what the keys have made of the text, and where the cursor is in it
  have hshows := shows_run (Screen.start 8 2) (Nat.zero_le 3) hlength stepping
    hwait
  have hgap : (Gap.start "ABC" 3).run 0 stepping = ⟨['A'], ['C'], .insert⟩ := by
    decide +kernel
  rw [hgap] at hshows
  have htext := congrArg String.toList hshows.editText
  rw [String.toList_ofList] at htext
  have hcursor := hshows.cursor
  have hindex := hshows.index
  refine ⟨Int.le_refl 2, hlength, ?_⟩
  intro shown
  change shown.status.scrollChar ≤ shown.status.cursorChar at hle
  change shown.status.cursorChar ≤ shown.status.scrollChar + 2 - 2 at hedge
  change shown.status.cursorChar = 1 at hcursor
  have hscroll : shown.status.scrollChar = 1 := by omega
  rw [hcursor, hscroll] at hmove hcell
  rw [hscroll, htext] at hdrawn
  rw [htext, hindex] at hcell
  obtain ⟨c, rfl⟩ := List.length_eq_one_iff.1 (show drawn.length = 1 by omega)
  have hc : c = 'C' := Option.some.inj (hdrawn 0 Nat.one_pos)
  rw [hc] at hwrite
  exact ⟨hwrite, hmove, hcell⟩

end LineEdit

end Deduction.Console
