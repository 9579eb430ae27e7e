/-
Numerals that are too long, and all the other reasons why a text is no
goal.

A text is legible if every character belongs to a token or is a space. Of
a legible text all numerals are read, and one that is too long ends the
reading. Where such a numeral is can be seen without the scanner: it is a
run of too many digits that does not go on a word (`HasOversize`). What is
cut off in front of it is never part of a word that it could go on, so the
scanner finds it where it is (`hasOversize_iff`).

Any other text is a goal, or there is something wrong with it that can be
reported: the parser meets no token that it cannot judge
(`isReported_of_parse`).
-/
import Mathlib.Data.List.TakeWhile
import Deduction.Proofs.Spelling

namespace Deduction

namespace Token

variable {cs rest : List Char} {x : Lexeme}

-- ============================================================ cutting off

/-- A space, or a sign of one character. -/
def isBreak (c : Char) : Bool :=
  c = ' ' || c = '(' || c = ')' || c = ':'

/-- What separates words is in none. -/
theorem isWordChar_of_isBreak {c : Char} (hc : isBreak c = true) :
    isWordChar c = false := by
  unfold isBreak at hc
  simp only [Bool.or_eq_true, decide_eq_true_eq] at hc
  rcases hc with ((rfl | rfl) | rfl) | rfl
  · rfl
  · rfl
  · rfl
  · rfl

/-- A name has only letters and digits. -/
theorem isWordChar_of_isName {letters : List Char}
    (h : isName letters = true) : ∀ c ∈ letters, isWordChar c = true := by
  cases letters with
  | nil => cases h
  | cons c letters =>
      rw [isName, Bool.and_eq_true, List.all_eq_true] at h
      intro d hd
      rcases List.mem_cons.1 hd with rfl | hd
      · rw [isWordChar, h.1, Bool.true_or]
      · exact h.2 d hd

/-- What may be cut off in front of a text: an arrow, spaces or a sign, or
a word or numeral that the text does not prolong. -/
inductive Taken : List Char → List Char → Prop where
  | arrow {rest : List Char} : Taken ['-', '>'] rest
  | breaks {taken rest : List Char} :
      (∀ c ∈ taken, isBreak c = true) → Taken taken rest
  | word {taken rest : List Char} :
      (∀ c ∈ taken, isWordChar c = true) → Stops isNumeric rest →
      Taken taken rest

/-- Reading a lexeme takes some characters off the front of the text: an
arrow, or breaks, or letters and digits that no digit follows. -/
theorem exists_taken (h : lexeme? cs = some (x, rest)) :
    ∃ taken, cs = taken ++ rest ∧ Taken taken rest := by
  have hleaves := leaves_of_lexeme? h
  have hwhole := isWhole_of_lexeme? h
  have hsign : ∀ d, isBreak d = true → Taken [d] rest := by
    intro d hd
    refine .breaks fun c hc => ?_
    rw [List.mem_singleton.1 hc]
    exact hd
  cases x with
  | space =>
      refine ⟨cs.takeWhile (· = ' '), ?_, .breaks fun c hc => ?_⟩
      · rw [show rest = cs.dropWhile (· = ' ') from hleaves,
          List.takeWhile_append_dropWhile]
      · have hspace := List.mem_takeWhile_imp (p := (· = ' ')) hc
        rw [of_decide_eq_true hspace]
        rfl
  | arrow => exact ⟨['-', '>'], hleaves, .arrow⟩
  | leftParen => exact ⟨['('], hleaves, hsign _ rfl⟩
  | rightParen => exact ⟨[')'], hleaves, hsign _ rfl⟩
  | colon => exact ⟨[':'], hleaves, hsign _ rfl⟩
  | word letters =>
      refine ⟨letters, hleaves.1, .word (isWordChar_of_isName hwhole) ?_⟩
      intro c hc
      have hword := hleaves.2 c hc
      rw [isWordChar, Bool.or_eq_false_iff] at hword
      exact hword.2
  | numeral digits =>
      refine ⟨digits, hleaves.1, .word (fun c hc => ?_) hleaves.2⟩
      exact isWordChar_of_isNumeric ((isDigits_iff.1 hwhole).2 c hc)

-- ============================================================ legibility

/-- Whether every character of a text belongs to a token or is a space. A
dash does so only in front of the head of its arrow. -/
def isLegible : List Char → Bool
  | [] => true
  | '-' :: '>' :: cs => isLegible cs
  | c :: cs => (isBreak c || isWordChar c) && isLegible cs

/-- Legible characters in front do not matter to whether a text is
legible. -/
theorem isLegible_append {taken : List Char}
    (h : ∀ c ∈ taken, (isBreak c || isWordChar c) = true)
    (rest : List Char) : isLegible (taken ++ rest) = isLegible rest := by
  induction taken with
  | nil => rfl
  | cons c taken ih =>
      have hc := h c List.mem_cons_self
      have hdash : c ≠ '-' := by
        intro hdash
        rw [hdash] at hc
        cases hc
      rw [List.cons_append, isLegible, hc, Bool.true_and,
        ih fun d hd => h d (List.mem_cons_of_mem _ hd)]
      intro _ hhead
      exact absurd hhead hdash

/-- Cutting off a lexeme does not change whether a text is legible. -/
theorem isLegible_of_lexeme? (h : lexeme? cs = some (x, rest)) :
    isLegible cs = isLegible rest := by
  obtain ⟨taken, rfl, htaken⟩ := exists_taken h
  cases htaken with
  | arrow => rfl
  | breaks hbreak =>
      refine isLegible_append (fun c hc => ?_) rest
      rw [hbreak c hc, Bool.true_or]
  | word hword =>
      refine isLegible_append (fun c hc => ?_) rest
      rw [hword c hc, Bool.or_true]

/-- The scanner is stuck at a character that is no part of a lexeme by
itself and does not begin an arrow. -/
theorem head_of_stuck {c : Char} (h : lexeme? (c :: cs) = none) :
    (isBreak c || isWordChar c) = false ∧ ¬ (c = '-' ∧ cs.head? = some '>') := by
  unfold lexeme? at h
  split at h
  next => cases h
  next => cases h
  next => cases h
  next => cases h
  next d ds harrow hleft hright hcolon hcons =>
    injection hcons with hd hds
    subst hd hds
    split at h
    next => cases h
    next hspace =>
      split at h
      next => cases h
      next hletter =>
        split at h
        next => cases h
        next hnumeric =>
          refine ⟨by simp_all [isBreak, isWordChar], ?_⟩
          rintro ⟨hdash, hhead⟩
          obtain ⟨rest, hrest⟩ := List.head?_eq_some_iff.1 hhead
          exact harrow rest hdash hrest
  next hcons => cases hcons

/-- A text at which the scanner is stuck is not legible. -/
theorem isLegible_of_stuck (hne : cs ≠ []) (h : lexeme? cs = none) :
    isLegible cs = false := by
  cases cs with
  | nil => exact absurd rfl hne
  | cons c cs =>
      obtain ⟨hplain, harrow⟩ := head_of_stuck h
      rw [isLegible, hplain, Bool.false_and]
      intro rest hdash hrest
      exact harrow ⟨hdash, by rw [hrest]; rfl⟩

/-- The scanner cuts the legible texts, and no others. -/
theorem exists_lexemes_iff (cs : List Char) :
    (∃ xs, lexemes cs = .ok xs) ↔ isLegible cs = true := by
  fun_induction lexemes cs with
  | case1 cs x rest hx xs hxs ih =>
      rw [isLegible_of_lexeme? hx, ← ih, hxs]
      exact iff_of_true ⟨_, rfl⟩ ⟨xs, rfl⟩
  | case2 cs x rest hx stuck hstuck ih =>
      rw [isLegible_of_lexeme? hx, ← ih, hstuck]
  | case3 cs hx hnil =>
      rw [List.isEmpty_iff.1 hnil]
      exact iff_of_true ⟨[], rfl⟩ rfl
  | case4 cs hx hne =>
      rw [isLegible_of_stuck (fun h => hne (List.isEmpty_iff.2 h)) hx]
      simp

-- ============================================================== numerals

/-- There is a run of too many digits that does not go on a word. -/
def HasOversize (cs : List Char) : Prop :=
  ∃ before digits after, cs = before ++ (digits ++ after)
    ∧ isDigits digits = true ∧ Numeral.maxDigits < digits.length
    ∧ ∀ c ∈ before.getLast?, isWordChar c = false

theorem not_hasOversize_nil : ¬ HasOversize [] := by
  rintro ⟨before, digits, after, hsplit, -, hlength, -⟩
  have hempty := congrArg List.length hsplit
  rw [List.length_append, List.length_append, List.length_nil] at hempty
  omega

/-- Whether a lexeme is a numeral of too many digits. -/
def Lexeme.isOversize : Lexeme → Bool
  | .numeral digits => decide (Numeral.maxDigits < digits.length)
  | _ => false

/-- What is cut off is a word or a numeral, and no digit follows, or no
part of it could be in one. -/
theorem Taken.all_or_none {taken rest : List Char} (h : Taken taken rest) :
    (∀ c ∈ taken, isWordChar c = true) ∧ Stops isNumeric rest
      ∨ ∀ c ∈ taken, isWordChar c = false := by
  cases h with
  | arrow =>
      refine Or.inr fun c hc => ?_
      rcases List.mem_cons.1 hc with rfl | hc
      · rfl
      · rw [List.mem_singleton.1 hc]
        rfl
  | breaks hbreak =>
      exact Or.inr fun c hc => isWordChar_of_isBreak (hbreak c hc)
  | word hword hstops => exact Or.inl ⟨hword, hstops⟩

/-- A text that begins with too many digits begins with such a numeral. -/
theorem isOversize_of_lexeme? {digits after : List Char}
    (hdigits : isDigits digits = true)
    (hlength : Numeral.maxDigits < digits.length)
    (h : lexeme? (digits ++ after) = some (x, rest)) :
    x.isOversize = true := by
  obtain ⟨hne, hall⟩ := isDigits_iff.1 hdigits
  have hsplit : digits ++ after
      = (digits ++ after.takeWhile isNumeric) ++ after.dropWhile isNumeric := by
    rw [List.append_assoc, List.takeWhile_append_dropWhile]
  have hrun : isDigits (digits ++ after.takeWhile isNumeric) = true := by
    refine isDigits_iff.2 ⟨List.append_ne_nil_of_left_ne_nil hne _, ?_⟩
    intro c hc
    rcases List.mem_append.1 hc with hc | hc
    · exact hall c hc
    · exact List.mem_takeWhile_imp hc
  rw [hsplit, lexeme?_numeral hrun (stops_dropWhile _ _)] at h
  injection h with h
  injection h with hx _
  rw [← hx]
  refine decide_eq_true ?_
  rw [List.length_append]
  omega

/-- A numeral of too many digits may be the first lexeme. -/
theorem HasOversize.of_isOversize (h : lexeme? cs = some (x, rest))
    (hx : x.isOversize = true) : HasOversize cs := by
  cases x with
  | numeral digits =>
      refine ⟨[], digits, rest, (leaves_of_lexeme? h).1, isWhole_of_lexeme? h,
        of_decide_eq_true hx, nofun⟩
  | _ => cases hx

/-- Lexemes in front of a numeral do not become part of it. -/
theorem HasOversize.of_lexeme? (h : lexeme? cs = some (x, rest))
    (hrest : HasOversize rest) : HasOversize cs := by
  obtain ⟨taken, rfl, htaken⟩ := exists_taken h
  obtain ⟨before, digits, after, rfl, hdigits, hlength, hbefore⟩ := hrest
  refine ⟨taken ++ before, digits, after, by rw [List.append_assoc], hdigits,
    hlength, ?_⟩
  intro c hc
  rw [List.getLast?_append] at hc
  cases hlast : before.getLast? with
  | some d =>
      rw [hlast] at hc hbefore
      exact hbefore c hc
  | none =>
      -- the numeral stands right behind the lexeme, which is then no word
      rw [hlast] at hc
      rw [List.getLast?_eq_none_iff.1 hlast] at htaken
      rcases htaken.all_or_none with ⟨-, hstops⟩ | hbreak
      · obtain ⟨hne, hall⟩ := isDigits_iff.1 hdigits
        cases digits with
        | nil => exact absurd rfl hne
        | cons d digits =>
            have hd := hstops d rfl
            rw [hall d List.mem_cons_self] at hd
            cases hd
      · exact hbreak c (List.mem_of_getLast? hc)

/-- A numeral of too many digits is the next lexeme, or is behind it. -/
theorem HasOversize.cases (h : lexeme? cs = some (x, rest))
    (hcs : HasOversize cs) : x.isOversize = true ∨ HasOversize rest := by
  obtain ⟨before, digits, after, hsplit, hdigits, hlength, hbefore⟩ := hcs
  obtain ⟨taken, htext, htaken⟩ := exists_taken h
  rw [hsplit] at htext
  rcases List.append_eq_append_iff.1 htext with
    ⟨run, hbehind, hrun⟩ | ⟨more, hmore, hrest⟩
  · cases run with
    | nil => exact Or.inr ⟨[], digits, after, hrun.symm, hdigits, hlength, nofun⟩
    | cons d run =>
        -- the cut is among the digits, so the lexeme is the numeral
        have hd : isWordChar d = true := by
          obtain ⟨hne, hall⟩ := isDigits_iff.1 hdigits
          cases digits with
          | nil => exact absurd rfl hne
          | cons e digits =>
              injection hrun with he _
              rw [← he]
              exact isWordChar_of_isNumeric (hall e List.mem_cons_self)
        have hword : ∀ c ∈ taken, isWordChar c = true := by
          rcases htaken.all_or_none with ⟨hword, -⟩ | hbreak
          · exact hword
          · rw [hbreak d (by rw [hbehind]; simp)] at hd
            cases hd
        have hnil : before = [] := by
          cases hlast : before.getLast? with
          | none => exact List.getLast?_eq_none_iff.1 hlast
          | some c =>
              have hc := hbefore c hlast
              rw [hword c] at hc
              · cases hc
              · rw [hbehind]
                exact List.mem_append_left _ (List.mem_of_getLast? hlast)
        rw [hsplit, hnil, List.nil_append] at h
        exact Or.inl (isOversize_of_lexeme? hdigits hlength h)
  · refine Or.inr ⟨more, digits, after, hrest, hdigits, hlength, ?_⟩
    intro c hc
    refine hbefore c ?_
    rw [hmore, List.getLast?_append, Option.mem_def.1 hc]
    rfl

/-- A text that is cut into lexemes has a numeral of too many digits just
if one of the lexemes is one. -/
theorem hasOversize_iff {xs : List Lexeme} (h : lexemes cs = .ok xs) :
    HasOversize cs ↔ ∃ x ∈ xs, x.isOversize = true := by
  fun_induction lexemes cs generalizing xs with
  | case1 cs x rest hx ys hys ih =>
      injection h with h
      subst h
      simp only [List.mem_cons, exists_eq_or_imp]
      rw [← ih hys]
      refine ⟨HasOversize.cases hx, fun h => ?_⟩
      rcases h with h | h
      · exact .of_isOversize hx h
      · exact .of_lexeme? hx h
  | case2 => cases h
  | case3 cs hx hnil =>
      injection h with h
      subst h
      rw [List.isEmpty_iff.1 hnil]
      exact iff_of_false not_hasOversize_nil (by simp)
  | case4 => cases h

-- ================================================================ tokens

/-- Only a numeral of too many digits makes no token. -/
theorem token?_cases (x : Lexeme) :
    if x.isOversize then
      ∃ n, Numeral.maxDigits < n ∧ x.token? = .error (.numeralTooLong n)
    else ∃ t, x.token? = .ok t := by
  cases x with
  | word letters =>
      show ∃ t, Lexeme.token? (.word letters) = .ok t
      unfold Lexeme.token?
      dsimp only
      split
      next => exact ⟨_, rfl⟩
      next => exact ⟨_, rfl⟩
  | numeral digits =>
      unfold Lexeme.isOversize Lexeme.token?
      by_cases hlength : Numeral.maxDigits < digits.length
      · simp only [hlength, decide_true, if_true]
        exact ⟨digits.length, hlength, rfl⟩
      · simp only [hlength, decide_false, if_false]
        exact ⟨_, rfl⟩
  | _ => exact ⟨_, rfl⟩

/-- A numeral that is too long stops the making of tokens. It need not be
the first lexeme: those before it are tokens, or are too long themselves. -/
theorem ofLexemes_of_isOversize {xs : List Lexeme}
    (h : ∃ x ∈ xs, x.isOversize = true) :
    ∃ n, Numeral.maxDigits < n
      ∧ ofLexemes xs = .error (.numeralTooLong n) := by
  induction xs with
  | nil => simp at h
  | cons x xs ih =>
      have hx := token?_cases x
      rw [ofLexemes]
      by_cases hsize : x.isOversize = true
      · rw [if_pos hsize] at hx
        obtain ⟨n, hn, htoken⟩ := hx
        refine ⟨n, hn, ?_⟩
        rw [htoken]
      · rw [if_neg hsize] at hx
        obtain ⟨t, htoken⟩ := hx
        obtain ⟨y, hy, hysize⟩ := h
        have hmem : y ∈ xs := by
          rcases List.mem_cons.1 hy with rfl | hy
          · exact absurd hysize hsize
          · exact hy
        obtain ⟨n, hn, hxs⟩ := ih ⟨y, hmem, hysize⟩
        refine ⟨n, hn, ?_⟩
        rw [htoken, hxs]

/-- Without such numerals all lexemes become tokens. -/
theorem exists_ofLexemes {xs : List Lexeme}
    (h : ∀ x ∈ xs, x.isOversize = false) : ∃ ts, ofLexemes xs = .ok ts := by
  induction xs with
  | nil => exact ⟨[], rfl⟩
  | cons x xs ih =>
      have hx := token?_cases x
      rw [if_neg (by rw [h x List.mem_cons_self]; decide)] at hx
      obtain ⟨t, htoken⟩ := hx
      obtain ⟨ts, hts⟩ := ih fun y hy => h y (List.mem_cons_of_mem _ hy)
      exact ⟨_, ofLexemes_cons_iff.2 ⟨t, ts, htoken, hts, rfl⟩⟩

end Token

-- =============================================================== parsing

namespace Formula

variable {tokens : List Token} {e : ReadError}

/-- A token with what its kind asks for is an atom, or no operand. -/
theorem ofToken_ne_error {t : Token} (ht : t.isLoaded = true)
    (cause : AtomError) : Atom.ofToken t ≠ some (.error cause) := by
  intro h
  by_cases hoperand : t.isOperand = true
  · obtain ⟨a, ha⟩ := Token.ofToken_of_isOperand ht hoperand
    rw [ha] at h
    cases h
  · unfold Token.isOperand at hoperand
    unfold Atom.ofToken at h
    split at h
    next hkind =>
      rw [hkind] at hoperand
      exact hoperand rfl
    next hkind =>
      rw [hkind] at hoperand
      exact hoperand rfl
    next => cases h

/-- An error that names a token is reported, as the tokens of a text can
be named. -/
theorem isReported_naming {t : Token} (ht : t.isNameable = true)
    (he : e.isReported = true) : (ReadError.naming t e).isReported = true := by
  rw [ReadError.naming_of_isNameable ht]
  exact he

/-- Reading pairs among tokens of a text fails for reasons that are
reported. The induction is over the reading, two tokens at a time. -/
theorem isReported_of_readPairs {strong : Connective → Bool} {p : Nat}
    (hload : ∀ t ∈ tokens, t.isLoaded = true ∧ t.isNameable = true)
    (h : readPairs Atom.ofToken strong p tokens = .error e) :
    e.isReported = true := by
  fun_induction readPairs Atom.ofToken strong p tokens with
  | case1 => cases h
  | case2 => cases h
  | case3 =>
      cases h
      rfl
  | case4 p t op hop u us hread =>
      cases h
      exact isReported_naming (hload u (by simp)).2 rfl
  | case5 p t op hop u us cause hread =>
      exact absurd hread (ofToken_ne_error (hload u (by simp)).1 cause)
  | case6 p t op hop u us a hread e' hwalk ih =>
      cases h
      refine ih (fun w hw => hload w ?_) hwalk
      exact List.mem_cons_of_mem _ (List.mem_cons_of_mem _ hw)
  | case7 => cases h

/-- What is wrong with the tokens of a text can be reported. -/
theorem isReported_of_parse
    (hload : ∀ t ∈ tokens, t.isLoaded = true ∧ t.isNameable = true)
    (h : parse Atom.ofToken tokens = .error e) : e.isReported = true := by
  unfold parse Cursor.start at h
  cases tokens with
  | nil =>
      cases h
      rfl
  | cons t ts =>
      cases hread : Atom.ofToken t with
      | none =>
          simp only [expression, operand, hread] at h
          cases h
          exact isReported_naming (hload t List.mem_cons_self).2 rfl
      | some read =>
          cases read with
          | error cause =>
              exact absurd hread
                (ofToken_ne_error (hload t List.mem_cons_self).1 cause)
          | ok a =>
              rw [expression_cons _ hread] at h
              cases hwalk : readPairs Atom.ofToken (fits 0) (0 + 1) ts with
              | error e' =>
                  rw [hwalk] at h
                  cases h
                  exact isReported_of_readPairs
                    (fun u hu => hload u (List.mem_cons_of_mem _ hu)) hwalk
              | ok walk =>
                  obtain ⟨xs, q, rest⟩ := walk
                  rw [hwalk] at h
                  cases rest with
                  | nil => cases h
                  | cons u rest =>
                      cases h
                      have hu : u ∈ ts := (suffix_of_readPairs _ hwalk).subset
                        List.mem_cons_self
                      refine isReported_naming (hload u ?_).2 rfl
                      exact List.mem_cons_of_mem _ hu

/-- So does parsing, and too deep a nesting is reported too. -/
theorem isReported_of_parseWithin {limit : Nat}
    (hload : ∀ t ∈ tokens, t.isLoaded = true ∧ t.isNameable = true)
    (h : parseWithin Atom.ofToken limit tokens = .error e) :
    e.isReported = true := by
  unfold parseWithin at h
  cases hparse : parse Atom.ofToken tokens with
  | ok f =>
      rw [hparse] at h
      dsimp only at h
      split at h
      next =>
        cases h
        rfl
      next => cases h
  | error e' =>
      rw [hparse] at h
      dsimp only at h
      split at h
      next =>
        cases h
        rfl
      next =>
        cases h
        exact isReported_of_parse hload hparse

end Formula

-- =============================================================== reading

namespace Goal

open Token

variable {limit : Nat} {text : String} {e : ReadError}

/-- The text is legible, but one of its numerals has too many digits. -/
def Oversize (text : String) : Prop :=
  isLegible text.toList = true ∧ HasOversize text.toList

/-- Where scanning a goal gives tokens, they are those of its text. -/
theorem scan_eq_ok {tokens : List Token}
    (h : scan text = .ok tokens) : Token.scan text = .ok tokens := by
  unfold scan at h
  split at h
  next ts hts =>
    cases h
    exact hts
  next => cases h
  next => cases h

/-- What comes of scanning a text. -/
theorem scan_cases (text : String) :
    (isLegible text.toList = false
        ∧ ∃ column, scan text = .error (.character column))
      ∨ (Oversize text
        ∧ ∃ n, Numeral.maxDigits < n
          ∧ scan text = .error (.numeralTooLong n))
      ∨ (¬ Oversize text ∧ ∃ tokens, scan text = .ok tokens) := by
  unfold scan Token.scan
  dsimp only
  cases hxs : lexemes text.toList with
  | error stuck =>
      refine Or.inl ⟨?_, _, rfl⟩
      rw [Bool.eq_false_iff, ne_eq, ← exists_lexemes_iff, hxs]
      rintro ⟨xs, h⟩
      cases h
  | ok xs =>
      have hlegible := (exists_lexemes_iff _).1 ⟨xs, hxs⟩
      by_cases hsize : ∃ x ∈ xs, x.isOversize = true
      · obtain ⟨n, hn, hts⟩ := ofLexemes_of_isOversize hsize
        dsimp only
        rw [hts]
        exact Or.inr (Or.inl
          ⟨⟨hlegible, (hasOversize_iff hxs).2 hsize⟩, n, hn, rfl⟩)
      · have hsmall : ∀ x ∈ xs, x.isOversize = false := by
          intro x hx
          rw [Bool.eq_false_iff]
          exact fun h => hsize ⟨x, hx, h⟩
        obtain ⟨ts, hts⟩ := exists_ofLexemes hsmall
        dsimp only
        rw [hts]
        refine Or.inr (Or.inr ⟨fun h => ?_, ts, rfl⟩)
        exact hsize ((hasOversize_iff hxs).1 h.2)

/-- A text with a numeral that is too long is not read, and the error says
how long it is. -/
theorem read_of_oversize (limit : Nat) (h : Oversize text) :
    ∃ n, Numeral.maxDigits < n ∧ read limit text = .error (.numeralTooLong n) := by
  rcases scan_cases text with ⟨hlegible, -⟩ | ⟨-, n, hn, hscan⟩ | ⟨hsmall, -⟩
  · rw [h.1] at hlegible
    cases hlegible
  · refine ⟨n, hn, ?_⟩
    unfold read parse
    rw [hscan]
  · exact absurd h hsmall

/-- A numeral by itself, with its number of digits in the error. -/
theorem read_numeral (limit : Nat) {digits : List Char}
    (hdigits : isDigits digits = true)
    (hlength : Numeral.maxDigits < digits.length) :
    read limit (String.ofList digits)
      = .error (.numeralTooLong digits.length) := by
  have hcut := lexeme?_numeral hdigits (stops_nil isNumeric)
  have hlexemes : lexemes digits = .ok [.numeral digits] := by
    rw [List.append_nil] at hcut
    rw [lexemes_of_lexeme? hcut, lexemes_nil]
    rfl
  have hscan : scan (String.ofList digits)
      = .error (.numeralTooLong digits.length) := by
    unfold scan Token.scan
    simp only [String.toList_ofList, hlexemes, ofLexemes, Lexeme.token?,
      if_pos hlength]
  unfold read parse
  rw [hscan]

/-- But for that, all errors of reading are shown to whoever typed the
text. -/
theorem isReported_of_read (h : ¬ Oversize text)
    (hread : read limit text = .error e) : e.isReported = true := by
  rcases scan_cases text with
    ⟨-, column, hscan⟩ | ⟨hsize, -⟩ | ⟨-, tokens, hscan⟩
  · unfold read parse at hread
    rw [hscan] at hread
    cases hread
    rfl
  · exact absurd hsize h
  · have hscanned := scanned_of_scan (scan_eq_ok hscan)
    have hload : ∀ t ∈ tokens, t.isLoaded = true ∧ t.isNameable = true :=
      fun t ht => ⟨(hscanned t ht).loaded, (hscanned t ht).nameable⟩
    unfold read parse at hread
    rw [hscan] at hread
    dsimp only at hread
    cases hparse : Formula.parseWithin Atom.ofToken limit tokens with
    | error e' =>
        rw [hparse] at hread
        cases hread
        exact Formula.isReported_of_parseWithin hload hparse
    | ok f =>
        rw [hparse] at hread
        dsimp only at hread
        split at hread
        next =>
          cases hread
          rfl
        next => cases hread

end Goal

/-- What is shown to whoever typed the text is not empty. -/
theorem ReadError.message_ne_empty {e : ReadError}
    (h : e.isReported = true) : e.message ≠ "" := by
  have hfirst : ∀ s t : String, s ≠ "" → s ++ t ≠ "" :=
    fun s t hs hst => hs (String.append_eq_empty_iff.1 hst).1
  cases e with
  | character column => exact hfirst _ _ (by decide)
  | endOfInput position =>
      show "Formula expected at end of input" ≠ ""
      decide
  | unexpected token position =>
      exact hfirst _ _ (hfirst _ _ (hfirst _ _ (by decide)))
  | extra token position =>
      exact hfirst _ _ (hfirst _ _ (hfirst _ _ (by decide)))
  | tooDeep =>
      show "Formula too deeply nested" ≠ ""
      decide
  | numeralTooLong digits => cases h
  | unnamed cursor => cases h
  | atom cause position => cases h
  | power position => cases h

end Deduction
