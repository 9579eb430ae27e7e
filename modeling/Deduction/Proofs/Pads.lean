/-
What a pad shows.

A pad that is used through its own operations keeps a line selected, as
far as it has lines, and keeps that line in view (`InView`). The view moves
up and down in one place only, `adjust`, which brings the selected line in
from wherever the view was (`adjust_cases`); so it makes no difference that
the lines may be exchanged for others at any time.

Drawing such a pad fills its part of the window, row by row and column by
column. What belongs into a place there is a character of a line, found by
adding the scroll to the place, or a blank where there is none (`cell`).
The drawing functions cut and fill up whole lines instead; that it comes
to the same is `drawRow_eq`.
-/
import Deduction.Console.Pad

namespace Deduction

-- ================================================================== cuts

namespace Text

/-- A slice of some length from a place on, within the text or beyond its
end. -/
theorem slice_add {α : Type} (xs : List α) {i n : Int} (hi : 0 ≤ i)
    (hn : 0 ≤ n) : slice xs i (i + n) = (xs.drop i.toNat).take n.toNat := by
  unfold slice clamp
  rw [if_neg (by omega), if_neg (by omega)]
  dsimp only
  rw [← List.take_eq_take_min]
  by_cases hle : i.toNat ≤ xs.length
  · rw [Nat.min_eq_left hle, List.drop_take,
      show (i + n).toNat - i.toNat = n.toNat by omega]
  · rw [Nat.min_eq_right (by omega),
      List.drop_of_length_le (List.length_take_le' _ _),
      List.drop_of_length_le (by omega), List.take_nil]

/-- A text that is cut and filled up has a character of its own or a blank
in every column. -/
theorem padRight_slice (cs : List Char) {i n : Int} (hi : 0 ≤ i)
    (hn : 0 ≤ n) :
    padRight (slice cs i (i + n)) n
      = (List.range n.toNat).map fun x => (cs[i.toNat + x]?).getD ' ' := by
  rw [slice_add cs hi hn]
  unfold padRight
  apply List.ext_getElem?
  intro x
  have hlength : ((cs.drop i.toNat).take n.toNat).length
      = min n.toNat (cs.length - i.toNat) := by simp
  by_cases hx : x < n.toNat
  · rw [List.getElem?_map, List.getElem?_range hx, Option.map_some]
    by_cases hin : i.toNat + x < cs.length
    · rw [List.getElem?_append_left (by omega), List.getElem?_take_of_lt hx,
        List.getElem?_drop, List.getElem?_eq_getElem hin, Option.getD_some]
    · rw [List.getElem?_append_right (by omega), List.getElem?_replicate,
        if_pos (by omega), List.getElem?_eq_none (by omega), Option.getD_none]
  · rw [List.getElem?_eq_none, List.getElem?_eq_none]
    · rw [List.length_map, List.length_range]
      omega
    · rw [List.length_append, List.length_replicate]
      omega

theorem spaces_eq (n : Int) :
    spaces n = (List.range n.toNat).map fun _ => ' ' := by
  rw [List.map_const', List.length_range]
  rfl

/-- Just the texts that are longer than the longest cannot be filled up:
the length of any other is a word. -/
theorem fillError?_eq_none_iff {n : Int} (hn : 0 ≤ n) :
    fillError? n = none ↔ n ≤ longest := by
  have hword : longest < Int.pow 2 (Word.sizeBits - 1) := by decide
  unfold fillError?
  by_cases hle : n ≤ longest
  · have hfits : Word.fits Word.sizeBits n = true := by
      unfold Word.fits
      rw [decide_eq_true_iff]
      omega
    rw [hfits, Bool.not_true, if_neg (by decide), if_neg (by omega)]
    exact iff_of_true rfl hle
  · refine iff_of_false ?_ hle
    split
    · simp
    · rw [if_pos (by omega)]
      simp

/-- Spaces fit just where a text does that is filled up with them. -/
theorem blankError?_eq_none_iff {n : Int} :
    blankError? n = none ↔ fillError? n = none := by
  unfold blankError? fillError?
  split
  · simp
  · rfl

end Text

namespace Console

namespace Pad

-- =========================================================== operations

/-- What may be done with a pad. -/
inductive Action where
  | setLines (lines : List String)
  | cursorDown
  | cursorUp
  | cursorRight
  | cursorLeft
  | refresh
  deriving DecidableEq, Repr

/-- The pad after something has been done with it. Drawing does not change
it. -/
def act (p : Pad) : Action → Pad
  | .setLines lines => p.setLines lines
  | .cursorDown => p.cursorDown
  | .cursorUp => p.cursorUp
  | .cursorRight => p.cursorRight
  | .cursorLeft => p.cursorLeft
  | .refresh => p

/-- The pad after several things have been done with it. -/
def after (p : Pad) (actions : List Action) : Pad :=
  actions.foldl act p

/-- What never changes of a pad: the window and how it is mounted there. -/
def mount (p : Pad) : Window × Int × Int × Bool × Bool :=
  (p.window, p.height, p.width, p.bordered, p.highlight)

/-- A line is selected, as far as there are lines, and it is in view. The
cursor is not to the left of what is in view. -/
structure InView (p : Pad) : Prop where
  nonneg : 0 ≤ p.cursorLine
  le_last : p.cursorLine ≤ max 0 ((p.lines.length : Int) - 1)
  scroll_nonneg : 0 ≤ p.scrollLine
  scroll_le : p.scrollLine ≤ p.cursorLine
  lt_scroll : p.cursorLine < p.scrollLine + p.height
  scrollChar_nonneg : 0 ≤ p.scrollChar
  scrollChar_le : p.scrollChar ≤ p.cursorChar

variable {p : Pad}

/-- Adjusting moves the view and nothing else, and the selected line is in
it afterwards. -/
theorem adjust_cases (hheight : 1 ≤ p.height) (hcursor : 0 ≤ p.cursorLine)
    (hscroll : 0 ≤ p.scrollLine) :
    ∃ top, p.adjust = { p with scrollLine := top } ∧ 0 ≤ top
      ∧ top ≤ p.cursorLine ∧ p.cursorLine < top + p.height := by
  unfold adjust
  by_cases habove : p.cursorLine < p.scrollLine
  · rw [if_pos habove]
    exact ⟨_, rfl, by omega, by omega, by omega⟩
  · rw [if_neg habove]
    by_cases hbelow : p.scrollLine + p.height ≤ p.cursorLine
    · rw [if_pos hbelow]
      exact ⟨_, rfl, by omega, by omega, by omega⟩
    · rw [if_neg hbelow]
      exact ⟨p.scrollLine, rfl, by omega, by omega, by omega⟩

/-- With another line selected, adjusting keeps the pad in view. -/
theorem InView.adjust (h : InView p) (hheight : 1 ≤ p.height)
    {lines : List String} {line : Int} (hline : 0 ≤ line)
    (hlast : line ≤ max 0 ((lines.length : Int) - 1)) :
    InView (Pad.adjust { p with lines := lines, cursorLine := line })
      ∧ (Pad.adjust { p with lines := lines, cursorLine := line }).mount
        = p.mount := by
  obtain ⟨top, hadjust, hnonneg, hle, hlt⟩ :=
    adjust_cases (p := { p with lines := lines, cursorLine := line })
      hheight hline h.scroll_nonneg
  rw [hadjust]
  exact ⟨⟨hline, hlast, hnonneg, hle, hlt, h.scrollChar_nonneg,
    h.scrollChar_le⟩, rfl⟩

/-- Moving right keeps the selected line in view. -/
theorem InView.cursorRight (h : InView p) : InView p.cursorRight := by
  have hnonneg := h.scrollChar_nonneg
  have hle := h.scrollChar_le
  refine ⟨h.nonneg, h.le_last, h.scroll_nonneg, h.scroll_le, h.lt_scroll,
    ?_, ?_⟩
  · simp only [Pad.cursorRight]
    split <;> omega
  · simp only [Pad.cursorRight]
    split <;> omega

/-- So does moving left, where the window may be scrolled back. -/
theorem InView.cursorLeft (h : InView p) : InView p.cursorLeft := by
  have hnonneg := h.scrollChar_nonneg
  have hle := h.scrollChar_le
  unfold Pad.cursorLeft
  by_cases hpos : 0 < p.cursorChar
  · rw [if_pos hpos]
    refine ⟨h.nonneg, h.le_last, h.scroll_nonneg, h.scroll_le, h.lt_scroll,
      ?_, ?_⟩
    · dsimp only
      split <;> omega
    · dsimp only
      split <;> omega
  · rw [if_neg hpos]
    exact h

/-- Whatever is done with a pad, it stays in view and mounted as it is. -/
theorem InView.act (h : InView p) (hheight : 1 ≤ p.height)
    (action : Action) :
    InView (p.act action) ∧ (p.act action).mount = p.mount := by
  have hnonneg := h.nonneg
  have hlast := h.le_last
  cases action with
  | setLines lines =>
      exact h.adjust hheight (by omega) (by omega)
  | cursorDown =>
      unfold Pad.act Pad.cursorDown
      by_cases hlt : p.cursorLine < (p.lines.length : Int) - 1
      · rw [if_pos hlt]
        exact h.adjust hheight (by omega) (by omega)
      · rw [if_neg hlt]
        exact ⟨h, rfl⟩
  | cursorUp =>
      unfold Pad.act Pad.cursorUp
      by_cases hpos : 0 < p.cursorLine
      · rw [if_pos hpos]
        exact h.adjust hheight (by omega) (by omega)
      · rw [if_neg hpos]
        exact ⟨h, rfl⟩
  | cursorRight => exact ⟨h.cursorRight, rfl⟩
  | cursorLeft =>
      refine ⟨h.cursorLeft, ?_⟩
      show p.cursorLeft.mount = _
      unfold Pad.cursorLeft
      split <;> rfl
  | refresh => exact ⟨h, rfl⟩

/-- After any actions the selected line is in view, and the window is as it
was mounted. -/
theorem InView.after (h : InView p) (hheight : 1 ≤ p.height)
    (actions : List Action) :
    InView (p.after actions) ∧ (p.after actions).mount = p.mount := by
  induction actions generalizing p with
  | nil => exact ⟨h, rfl⟩
  | cons action actions ih =>
      obtain ⟨hact, hmount⟩ := h.act hheight action
      have hheight' : 1 ≤ (p.act action).height := by
        rw [show (p.act action).height = p.height from
          congrArg (·.2.1) hmount]
        exact hheight
      obtain ⟨hafter, hmount'⟩ := ih hact hheight'
      exact ⟨hafter, hmount'.trans hmount⟩

-- ============================================================== drawing

/-- What belongs into a place inside the border: a character of the line
that is in view there, or a blank. -/
def cell (p : Pad) (y x : Nat) : Char :=
  ((p.lines[p.scrollLine.toNat + y]?).bind fun line =>
    line.toList[p.scrollChar.toNat + x]?).getD ' '

/-- What belongs into a row, as wide as there is room. -/
def row (p : Pad) (y : Nat) : List Char :=
  (List.range (room p.width p.bordered).toNat).map (p.cell y)

/-- How a row is shown. A row past the last line has no shade. -/
def shade? (p : Pad) (y : Nat) : Option Shade :=
  if p.scrollLine + y < p.lines.length then
    some (if p.highlight = true ∧ p.scrollLine + y = p.cursorLine then .reverse
      else .normal)
  else none

theorem length_row (hroom : 0 ≤ room p.width p.bordered) (y : Nat) :
    ((p.row y).length : Int) = room p.width p.bordered := by
  rw [row, List.length_map, List.length_range]
  omega

/-- A row is drawn as it should be. -/
theorem drawRow_eq (hline : 0 ≤ p.scrollLine) (hchar : 0 ≤ p.scrollChar)
    (hroom : 0 ≤ room p.width p.bordered) (y : Nat) :
    p.drawRow y
      = .write p.window (margin p.bordered + y) (margin p.bordered) (p.row y)
          (p.shade? y) := by
  have hat : ((y : Int) + p.scrollLine).toNat = p.scrollLine.toNat + y := by
    omega
  have hrow : p.row y = (List.range (room p.width p.bordered).toNat).map
      fun x => ((p.lines[p.scrollLine.toNat + y]?).bind fun line =>
        line.toList[p.scrollChar.toNat + x]?).getD ' ' := rfl
  unfold drawRow
  dsimp only
  rw [hat, hrow, Int.add_comm (margin p.bordered)]
  cases hget : p.lines[p.scrollLine.toNat + y]? with
  | some line =>
      have hlt := (List.getElem?_eq_some_iff.1 hget).1
      have hshade : p.shade? y
          = some (if (p.highlight && (y : Int) + p.scrollLine == p.cursorLine)
              then .reverse else .normal) := by
        rw [shade?, if_pos (by omega), Int.add_comm]
        simp
      rw [hshade]
      dsimp only [drawLine]
      rw [Text.padRight_slice _ hchar hroom]
      rfl
  | none =>
      have hge := List.getElem?_eq_none_iff.1 hget
      rw [shade?, if_neg (by omega)]
      dsimp only [clearLine]
      rw [Text.spaces_eq]
      rfl

/-- Drawing writes every row once, and then places the cursor. -/
theorem refresh_eq (hline : 0 ≤ p.scrollLine) (hchar : 0 ≤ p.scrollChar)
    (hroom : 0 ≤ room p.width p.bordered) (herror : p.refreshError? = none) :
    p.refresh
      = (List.range p.height.toNat).map (fun y : Nat =>
          .write p.window (margin p.bordered + y) (margin p.bordered)
            (p.row y) (p.shade? y))
        ++ [p.place, .refresh p.window] := by
  unfold refresh
  rw [herror, Option.isSome_none, if_neg (by decide)]
  congr 1
  exact List.map_congr_left fun y _ => drawRow_eq hline hchar hroom y

/-- A pad with rows can be drawn unless they are too long. -/
theorem refreshError?_eq_none_iff (hheight : 1 ≤ p.height)
    (hroom : 0 ≤ room p.width p.bordered) :
    p.refreshError? = none ↔ room p.width p.bordered ≤ Text.longest := by
  unfold refreshError? clearError?
  rw [if_neg (by omega), ← Text.fillError?_eq_none_iff hroom]
  split
  · rfl
  · exact Text.blankError?_eq_none_iff

/-- Just the row of the selected line is reversed, in a pad that shows its
selection and has lines. -/
theorem InView.shade?_eq_reverse_iff (h : InView p) (y : Nat) :
    p.shade? y = some .reverse
      ↔ p.highlight = true ∧ p.lines ≠ []
        ∧ (y : Int) = p.cursorLine - p.scrollLine := by
  have hlast := h.le_last
  have hscroll := h.scroll_nonneg
  have hempty : p.lines = [] ↔ p.lines.length = 0 := List.length_eq_zero_iff.symm
  unfold shade?
  rw [ne_eq, hempty]
  split
  next hlt =>
    by_cases hselected : p.highlight = true ∧ p.scrollLine + y = p.cursorLine
    · rw [if_pos hselected]
      simp only [true_iff]
      exact ⟨hselected.1, by omega, by omega⟩
    · rw [if_neg hselected]
      refine iff_of_false (by simp) ?_
      rintro ⟨hhighlight, -, hy⟩
      exact hselected ⟨hhighlight, by omega⟩
  next hge =>
    refine iff_of_false (by simp) ?_
    rintro ⟨-, hne, hy⟩
    omega

/-- However a pad is used, a line is selected as far as there are lines,
and it is in view. Drawing the pad writes every row inside the border once
and fills it, with what belongs into its places, unless a row is longer
than any text. The selected line alone is reversed, where a selection is
shown, and there the cursor is put. -/
theorem selection_in_view (window : Window) (bordered highlight : Bool)
    {height width : Int} (hheight : 1 ≤ height)
    (hwidth : 2 * margin bordered + 1 ≤ width) (actions : List Action) :
    let b := margin bordered
    let p := Pad.after { Pad.new window height width bordered with highlight }
      actions
    (0 ≤ p.cursorLine ∧ p.cursorLine ≤ max 0 ((p.lines.length : Int) - 1))
      ∧ (0 ≤ p.scrollLine ∧ p.scrollLine ≤ p.cursorLine
        ∧ p.cursorLine < p.scrollLine + height ∧ 0 ≤ p.scrollChar)
      ∧ (p.refreshError? = none ↔ width - 2 * b - 1 ≤ Text.longest)
      ∧ (p.refreshError? = none →
          p.refresh
            = (List.range height.toNat).map (fun y : Nat =>
                .write window (b + y) b (p.row y) (p.shade? y))
              ++ [p.place, .refresh window])
      ∧ (∀ y, ((p.row y).length : Int) = width - 2 * b - 1)
      ∧ (∀ y : Nat, p.shade? y = some .reverse
          ↔ highlight = true ∧ p.lines ≠ []
            ∧ (y : Int) = p.cursorLine - p.scrollLine)
      ∧ (highlight = true →
          p.place = .move window (b + (p.cursorLine - p.scrollLine)) b) := by
  intro b p
  have hstart : InView { Pad.new window height width bordered with highlight } :=
    ⟨Int.le_refl 0, Int.le_max_left 0 _, Int.le_refl 0, Int.le_refl 0,
      by show 0 < 0 + height; omega, Int.le_refl 0, Int.le_refl 0⟩
  obtain ⟨h, hmount⟩ := hstart.after hheight actions
  change InView p at h
  change p.mount = (window, height, width, bordered, highlight) at hmount
  simp only [mount, Prod.mk.injEq] at hmount
  obtain ⟨hwindow, hp, hw, hb, hhighlight⟩ := hmount
  have hroom : room p.width p.bordered = width - 2 * b - 1 := by
    rw [hw, hb]
    rfl
  have hfits : 0 ≤ room p.width p.bordered := by omega
  refine ⟨⟨h.nonneg, h.le_last⟩, ⟨h.scroll_nonneg, h.scroll_le, ?_,
    h.scrollChar_nonneg⟩, ?_, ?_, ?_, ?_, ?_⟩
  · rw [← hp]
    exact h.lt_scroll
  · rw [← hroom]
    exact refreshError?_eq_none_iff (by omega) hfits
  · intro herror
    rw [refresh_eq h.scroll_nonneg h.scrollChar_nonneg hfits herror, hwindow,
      hp, hb]
  · intro y
    rw [length_row hfits, hroom]
  · intro y
    rw [h.shade?_eq_reverse_iff, hhighlight]
  · intro hon
    rw [place, hhighlight, hon, if_pos rfl, hwindow, hb, Int.add_comm]

/-- The last of three lines is selected, the view goes one character to the
right, and then there are two lines only. -/
def exchanging : List Action :=
  [.setLines ["alpha", "beta", "gamma"], .cursorDown, .cursorDown]
    ++ List.replicate 7 .cursorRight ++ [.setLines ["one", "two"]]

/-- Two rows show the second line, which is now selected, and a blank. -/
theorem selection_in_view_exchanged :
    (1 : Int) ≤ 2 ∧ 2 * margin true + 1 ≤ 8
      ∧ (Pad.after { Pad.new .proof 2 8 true with highlight := true }
          exchanging).refresh
        = [.write .proof 1 1 "wo   ".toList (some .reverse),
           .write .proof 2 1 "     ".toList none,
           .move .proof 1 1, .refresh .proof] := by
  have hheight : (1 : Int) ≤ 2 := by decide
  have hwidth : 2 * margin true + 1 ≤ 8 := by decide
  obtain ⟨-, -, herror, hrefresh, -⟩ :=
    selection_in_view .proof true true hheight hwidth exchanging
  refine ⟨hheight, hwidth, (hrefresh (herror.2 (by decide))).trans ?_⟩
  decide +kernel

end Pad

end Console

end Deduction
