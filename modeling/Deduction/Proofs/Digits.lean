/-
Digits, and the numbers that are read from them.

There are more digits than those of decimal notation: superscripts and
circled digits count as digits, and are no part of a numeral. So a text
made of digits alone need not be a number. `Numeral.read_of_isDigit` says
what it is read as. The digits at its front are taken first; if they are
too many the text is refused for that, and otherwise it is a number only
if they are all of it.
-/
import Mathlib.Data.List.Basic
import Mathlib.Data.List.TakeWhile
import Deduction.Proofs.Scanning
import Deduction.Number.Numeral

namespace Deduction

-- ========================================================== classes

namespace Text

variable {c : Char} {n : Nat}

/-- Tables that have no code point in common. -/
def apart (s t : List (Nat × Nat)) : Bool :=
  s.all fun a => t.all fun b => a.2 < b.1 || b.2 < a.1

/-- A number in one of some ranges is in none that lie apart from them. -/
theorem inRanges_of_apart {s t : List (Nat × Nat)} (h : apart s t = true)
    (hs : inRanges s n = true) : inRanges t n = false := by
  obtain ⟨a, ha, hin⟩ := List.any_eq_true.1 hs
  rw [Bool.and_eq_true, decide_eq_true_iff, decide_eq_true_iff] at hin
  rw [Bool.eq_false_iff]
  intro ht
  obtain ⟨b, hb, hin'⟩ := List.any_eq_true.1 ht
  rw [Bool.and_eq_true, decide_eq_true_iff, decide_eq_true_iff] at hin'
  have hab := List.all_eq_true.1 (List.all_eq_true.1 h a ha) b hb
  rw [Bool.or_eq_true, decide_eq_true_iff, decide_eq_true_iff] at hab
  omega

/-- The decimal digits as a table. -/
theorem isDecimal_eq (c : Char) :
    isDecimal c = inRanges (zeros.map fun base => (base, base + 9)) c.toNat := by
  unfold isDecimal decimalValue? inRanges
  rw [Option.isSome_map, List.isSome_find?, List.any_map]
  rfl

/-- A digit is not cut off as white space. -/
theorem isBlank_of_isDigit (hc : isDigit c = true) : isBlank c = false := by
  unfold isDigit at hc
  rw [Bool.or_eq_true, isDecimal_eq] at hc
  rcases hc with hdecimal | hdecorated
  · exact inRanges_of_apart (by decide +kernel) hdecimal
  · exact inRanges_of_apart (by decide +kernel) hdecorated

theorem isDigit_of_isDecimal (hc : isDecimal c = true) : isDigit c = true := by
  rw [isDigit, hc, Bool.true_or]

end Text

namespace Token

/-- A digit of a numeral can be typed, is no blank, and counts as a digit
with its value. -/
theorem typed_of_isNumeric {c : Char} (hc : isNumeric c = true) :
    Text.isPrintable c = true ∧ Text.isBlank c = false
      ∧ Text.decimalValue? c = some (c.toNat - '0'.toNat) := by
  have hall : ∀ n < 10, ∀ d, d = Char.ofNat (48 + n) →
      Text.isPrintable d = true ∧ Text.isBlank d = false
        ∧ Text.decimalValue? d = some (d.toNat - '0'.toNat) := by
    simp only [forall_eq]
    decide +kernel
  obtain ⟨hle, hge⟩ := isNumeric_iff.1 hc
  refine hall (c.toNat - 48) (by omega) c ?_
  rw [Nat.add_sub_cancel' hle, Char.ofNat_toNat]

theorem isDecimal_of_isNumeric {c : Char} (hc : isNumeric c = true) :
    Text.isDecimal c = true := by
  rw [Text.isDecimal, (typed_of_isNumeric hc).2.2]
  rfl

end Token

-- =========================================================== reading

namespace Numeral

open Text Token

variable {cs : List Char}

theorem length_toDigits_le {k n : Nat} (hk : 0 < k) (h : n < Nat.pow 10 k) :
    (Nat.toDigits 10 n).length ≤ k :=
  (Nat.length_toDigits_le_iff (by decide) hk).2 h

/-- Nothing is cut off a text without the characters that are cut off. -/
theorem dropWhile_ends {p : Char → Bool} (h : ∀ c ∈ cs, p c = false) :
    ((cs.dropWhile p).reverse.dropWhile p).reverse = cs := by
  have hkeep : ∀ ds : List Char, (∀ c ∈ ds, p c = false) →
      ds.dropWhile p = ds := by
    intro ds hds
    cases ds with
    | nil => rfl
    | cons d ds =>
        rw [List.dropWhile_cons, if_neg]
        rw [hds d List.mem_cons_self]
        decide
  rw [hkeep cs h, hkeep cs.reverse fun c hc => h c (List.mem_reverse.1 hc),
    List.reverse_reverse]

/-- Digits without anything between them are grouped. -/
theorem isGrouped_of_forall (hne : cs ≠ []) (h : ∀ c ∈ cs, isDecimal c = true) :
    isGrouped cs = true := by
  induction cs with
  | nil => exact absurd rfl hne
  | cons c cs ih =>
      have hc := h c List.mem_cons_self
      cases cs with
      | nil => exact hc
      | cons d cs =>
          have hrest := ih (List.cons_ne_nil d cs)
            fun e he => h e (List.mem_cons_of_mem _ he)
          rw [isGrouped, hc, hrest]
          rfl

/-- So they are a run of digits. -/
theorem isRun_of_forall (hne : cs ≠ []) (h : ∀ c ∈ cs, isDecimal c = true) :
    isRun cs = true := by
  rw [isRun, isGrouped_of_forall hne h, Bool.and_true]
  cases cs with
  | nil => exact absurd rfl hne
  | cons c cs => exact h c List.mem_cons_self

/-- Digits have neither margins nor a sign. -/
theorem splitSign_of_isDigit (h : ∀ c ∈ cs, isDigit c = true) :
    splitSign (dropMargins cs) = (false, cs) := by
  have hmargins : dropMargins cs = cs := by
    refine dropWhile_ends fun c hc => ?_
    rw [isMargin, isBlank_of_isDigit (h c hc), Bool.false_and]
  rw [hmargins]
  unfold splitSign
  split
  next => exact absurd (h '-' List.mem_cons_self) (by decide +kernel)
  next => exact absurd (h '+' List.mem_cons_self) (by decide +kernel)
  next => rfl

/-- There is no low line among digits. -/
theorem takeWhile_isRunChar (h : ∀ c ∈ cs, isDigit c = true) :
    cs.takeWhile isRunChar = cs.takeWhile isDecimal := by
  induction cs with
  | nil => rfl
  | cons c cs ih =>
      have hline : c ≠ '_' := by
        intro hc
        have hdigit := h c List.mem_cons_self
        rw [hc] at hdigit
        exact absurd hdigit (by decide +kernel)
      rw [List.takeWhile_cons, List.takeWhile_cons, isRunChar,
        decide_eq_false hline, Bool.or_false,
        ih fun d hd => h d (List.mem_cons_of_mem _ hd)]

/-- What is read from digits. They are a number if they are all decimal,
unless those at the front are too many. -/
theorem read_of_isDigit (hne : cs ≠ []) (h : ∀ c ∈ cs, isDigit c = true) :
    read (String.ofList cs)
      = if maxDigits < (cs.takeWhile isDecimal).length then
          .error (.tooLong (cs.takeWhile isDecimal).length)
        else if cs.all isDecimal then .ok (value cs)
        else .error (.malformed (String.ofList cs)) := by
  have hdecimal : ∀ c ∈ cs.takeWhile isDecimal, isDecimal c = true :=
    fun c hc => List.mem_takeWhile_imp hc
  unfold read
  rw [String.toList_ofList, splitSign_of_isDigit h]
  dsimp only
  rw [takeWhile_isRunChar h, List.filter_eq_self.2 hdecimal]
  cases hall : cs.all isDecimal with
  | true =>
      have hrun : cs.takeWhile isDecimal = cs :=
        List.takeWhile_eq_self_iff.2 (List.all_eq_true.1 hall)
      rw [hrun] at hdecimal ⊢
      rw [isRun_of_forall hne hdecimal, if_neg (by decide),
        if_neg (Nat.lt_irrefl _)]
      rfl
  | false =>
      have hshort : (cs.takeWhile isDecimal).length < cs.length := by
        refine Nat.lt_of_le_of_ne (List.takeWhile_prefix _).length_le ?_
        intro hlength
        have hrun := (List.takeWhile_prefix isDecimal).eq_of_length hlength
        rw [List.all_eq_true.2 (List.takeWhile_eq_self_iff.1 hrun)] at hall
        cases hall
      by_cases hnil : cs.takeWhile isDecimal = []
      · rw [hnil]
        rfl
      · rw [isRun_of_forall hnil hdecimal, if_neg (by decide), if_pos hshort]
        rfl

/-- Digits of any script are read as their value, if they are not too
many. -/
theorem read_decimals (hne : cs ≠ []) (h : ∀ c ∈ cs, isDecimal c = true)
    (hlength : cs.length ≤ maxDigits) :
    read (String.ofList cs) = .ok (value cs) := by
  rw [read_of_isDigit hne fun c hc => isDigit_of_isDecimal (h c hc),
    List.takeWhile_eq_self_iff.2 h, if_neg (Nat.not_lt.2 hlength),
    if_pos (List.all_eq_true.2 h)]

/-- A numeral of ASCII digits is read as its value. -/
theorem read_digits (hcs : isDigits cs = true)
    (hlength : cs.length ≤ maxDigits) :
    read (String.ofList cs) = .ok (numeralValue cs) := by
  obtain ⟨hne, hall⟩ := isDigits_iff.1 hcs
  have hvalue : value cs = numeralValue cs := by
    refine List.foldl_ext _ _ _ fun n c hc => ?_
    rw [(typed_of_isNumeric (hall c hc)).2.2]
    rfl
  rw [read_decimals hne (fun c hc => isDecimal_of_isNumeric (hall c hc)) hlength,
    hvalue]

end Numeral

end Deduction
