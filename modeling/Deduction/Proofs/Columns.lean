/-
Where the scanner stops.

Whether a character may stand where it does is seen from it and from its
two neighbours. Letters, digits, spaces, brackets and colons may stand
anywhere, a dash only in front of the head of its arrow, and the head only
behind its dash. Any other character is stray (`Stray`).

The scanner does not look at characters in this way. It cuts off one
lexeme after the other and stops where none begins. But nothing in a
lexeme is stray, and since no lexeme ends in a dash, what is stray behind
it stays so when it is cut off (`Taken.stray_append`). So the column where
the scanner stops is that of the first stray character
(`isLeast_of_lexemes`), and numerals, however long, make no difference:
they are read when everything has been cut.
-/
import Mathlib.Order.Bounds.Basic
import Deduction.Proofs.Oversize

namespace Deduction

namespace Token

variable {cs taken rest : List Char}

-- ====================================================== stray characters

/-- The character at an index is no space and no part of a token: none
that may stand anywhere, no dash with the head of its arrow behind it, and
no head with its dash in front. -/
def Stray (cs : List Char) (i : Nat) : Prop :=
  ∃ c, cs[i]? = some c
    ∧ (isBreak c || isWordChar c) = false
    ∧ ¬ (c = '-' ∧ cs[i + 1]? = some '>')
    ∧ ¬ (c = '>' ∧ 0 < i ∧ cs[i - 1]? = some '-')

theorem not_stray_nil (i : Nat) : ¬ Stray [] i := by
  rintro ⟨c, hc, -⟩
  simp at hc

/-- No lexeme ends in a dash. -/
theorem Taken.getLast?_ne (h : Taken taken rest) :
    taken.getLast? ≠ some '-' := by
  cases h with
  | arrow => decide
  | breaks hbreak =>
      intro hlast
      have hdash := hbreak '-' (List.mem_of_getLast? hlast)
      cases hdash
  | word hword _ =>
      intro hlast
      have hdash := hword '-' (List.mem_of_getLast? hlast)
      cases hdash

/-- Nothing in a lexeme is stray. -/
theorem Taken.not_stray (h : Taken taken rest) {i : Nat}
    (hi : i < taken.length) : ¬ Stray (taken ++ rest) i := by
  rintro ⟨c, hc, hplain, hdash, hhead⟩
  rw [List.getElem?_append_left hi] at hc
  have hmem := List.mem_of_getElem? hc
  cases h with
  | arrow =>
      -- the two characters of an arrow vouch for each other
      have hside : i = 0 ∨ i = 1 := by
        simp only [List.length_cons, List.length_nil] at hi
        omega
      rcases hside with rfl | rfl
      · cases hc
        exact hdash ⟨rfl, rfl⟩
      · cases hc
        exact hhead ⟨rfl, Nat.one_pos, rfl⟩
  | breaks hbreak => simp [hbreak c hmem] at hplain
  | word hword _ => simp [hword c hmem] at hplain

/-- Behind a lexeme the same characters are stray as without it. -/
theorem Taken.stray_append (h : Taken taken rest) (j : Nat) :
    Stray (taken ++ rest) (taken.length + j) ↔ Stray rest j := by
  have hat (k : Nat) : (taken ++ rest)[taken.length + k]? = rest[k]? := by
    rw [List.getElem?_append_right (Nat.le_add_right _ _),
      Nat.add_sub_cancel_left]
  have hbefore : (0 < taken.length + j
        ∧ (taken ++ rest)[taken.length + j - 1]? = some '-')
      ↔ 0 < j ∧ rest[j - 1]? = some '-' := by
    cases j with
    | succ j => simp [← Nat.add_assoc, List.getElem?_append_right]
    | zero =>
        -- what would vouch for a head here is the end of the lexeme
        refine iff_of_false ?_ (by simp)
        rintro ⟨hpos, hlast⟩
        rw [Nat.add_zero, List.getElem?_append_left (by omega),
          ← List.getLast?_eq_getElem?] at hlast
        exact h.getLast?_ne hlast
  unfold Stray
  simp only [hat, Nat.add_assoc, hbefore]

/-- The first stray character behind a lexeme is the first at all. -/
theorem Taken.isLeast (h : Taken taken rest) {j : Nat}
    (hj : IsLeast {i | Stray rest i} j) :
    IsLeast {i | Stray (taken ++ rest) i} (taken.length + j) := by
  refine ⟨(h.stray_append j).2 hj.1, ?_⟩
  intro i hi
  by_cases hlt : i < taken.length
  · exact absurd hi (h.not_stray hlt)
  · obtain ⟨k, rfl⟩ := Nat.exists_eq_add_of_le (Nat.le_of_not_lt hlt)
    exact Nat.add_le_add_left (hj.2 ((h.stray_append k).1 hi)) _

-- =============================================================== cutting

/-- A character that begins no lexeme is stray. -/
theorem stray_of_stuck (hne : cs ≠ []) (h : lexeme? cs = none) :
    Stray cs 0 := by
  cases cs with
  | nil => exact absurd rfl hne
  | cons c cs =>
      obtain ⟨hplain, harrow⟩ := head_of_stuck h
      refine ⟨c, rfl, hplain, ?_, by simp⟩
      rw [List.head?_eq_getElem?] at harrow
      exact harrow

/-- A text that is cut into lexemes has no stray character. -/
theorem not_stray_of_lexemes {xs : List Lexeme} (h : lexemes cs = .ok xs)
    (i : Nat) : ¬ Stray cs i := by
  fun_induction lexemes cs generalizing xs i with
  | case1 cs x rest hx ys hys ih =>
      obtain ⟨taken, rfl, htaken⟩ := exists_taken hx
      by_cases hlt : i < taken.length
      · exact htaken.not_stray hlt
      · obtain ⟨k, rfl⟩ := Nat.exists_eq_add_of_le (Nat.le_of_not_lt hlt)
        rw [htaken.stray_append]
        exact ih hys k
  | case2 => cases h
  | case3 cs hx hnil =>
      rw [List.isEmpty_iff.1 hnil]
      exact not_stray_nil i
  | case4 => cases h

/-- Where cutting stops there is a stray character, the first one. -/
theorem isLeast_of_lexemes {stuck : List Char}
    (h : lexemes cs = .error stuck) :
    ∃ before, cs = before ++ stuck
      ∧ IsLeast {i | Stray cs i} before.length := by
  fun_induction lexemes cs with
  | case1 => cases h
  | case2 cs x rest hx stuck' hstuck ih =>
      injection h with h
      subst h
      obtain ⟨taken, rfl, htaken⟩ := exists_taken hx
      obtain ⟨before, rfl, hleast⟩ := ih hstuck
      refine ⟨taken ++ before, by rw [List.append_assoc], ?_⟩
      rw [List.length_append]
      exact htaken.isLeast hleast
  | case3 => cases h
  | case4 cs hx hne =>
      injection h with h
      subst h
      refine ⟨[], rfl, stray_of_stuck ?_ hx, fun i _ => Nat.zero_le i⟩
      intro hnil
      exact hne (List.isEmpty_iff.2 hnil)

/-- If there is a stray character, there is a first one. -/
theorem exists_isLeast_of_stray {i : Nat} (h : Stray cs i) :
    ∃ column, IsLeast {i | Stray cs i} column := by
  cases hxs : lexemes cs with
  | ok xs => exact absurd h (not_stray_of_lexemes hxs i)
  | error stuck =>
      obtain ⟨before, -, hleast⟩ := isLeast_of_lexemes hxs
      exact ⟨before.length, hleast⟩

end Token

-- ============================================================== scanning

namespace Goal

open Token

/-- The scanner reports a character just if it is the first stray one. -/
theorem scan_eq_character_iff {text : String} {column : Nat} :
    scan text = .error (.character column)
      ↔ IsLeast {i | Stray text.toList i} column := by
  cases hxs : lexemes text.toList with
  | error stuck =>
      obtain ⟨before, hsplit, hleast⟩ := isLeast_of_lexemes hxs
      have hscan : scan text = .error (.character before.length) := by
        unfold scan Token.scan
        simp only [hxs]
        rw [hsplit, List.length_append, Nat.add_sub_cancel]
      rw [hscan]
      constructor
      · intro h
        cases h
        exact hleast
      · intro h
        rw [hleast.unique h]
  | ok xs =>
      refine iff_of_false ?_ fun h => not_stray_of_lexemes hxs column h.1
      intro h
      -- no other way of failing names a character
      rcases scan_cases text with ⟨hlegible, -⟩ | ⟨-, n, -, hscan⟩ | ⟨-, ts, hscan⟩
      · rw [(exists_lexemes_iff _).1 ⟨xs, hxs⟩] at hlegible
        cases hlegible
      · rw [hscan] at h
        cases h
      · rw [hscan] at h
        cases h

/-- A text is refused for a character just if one is stray, whatever else
there is in it. The column that is reported is then that of the first, and
the message counts it from one. -/
theorem scan_stops_at_stray (text : String) :
    ((∃ column, scan text = .error (.character column))
        ↔ ∃ i, Stray text.toList i)
      ∧ ∀ column, IsLeast {i | Stray text.toList i} column
        ↔ ∃ e, scan text = .error e ∧ e = .character column
            ∧ e.message
              = "Unexpected character at column " ++ toString (column + 1) := by
  refine ⟨?_, fun column => ?_⟩
  · constructor
    · rintro ⟨column, h⟩
      exact ⟨column, (scan_eq_character_iff.1 h).1⟩
    · rintro ⟨i, hi⟩
      obtain ⟨column, hleast⟩ := exists_isLeast_of_stray hi
      exact ⟨column, scan_eq_character_iff.2 hleast⟩
  · constructor
    · intro h
      exact ⟨_, scan_eq_character_iff.2 h, rfl, rfl⟩
    · rintro ⟨e, hscan, rfl, -⟩
      exact scan_eq_character_iff.1 hscan

end Goal

end Deduction
