/-
What the scanner makes of a text.

The first stage cuts lexemes off the front of the text, each as long as
it can be. So a word or a numeral comes out whole if what follows cannot
prolong it, and the lemmas of the first part say so for each kind of
lexeme. The other way round, whatever comes out is well formed: a word
starts with a letter and goes on with letters and digits, a numeral is
made of digits.

The second stage reads lexemes as tokens. From well formed lexemes it
makes tokens of which the parser can read every operand, as an atom with
a proper name or with a number of not too many digits (`scanned_of_scan`).
-/
import Deduction.Proofs.Grammar

namespace Deduction.Token

-- ============================================================ cutting off

/-- A text does not begin with a character of some class. -/
def Stops (p : Char → Bool) (cs : List Char) : Prop :=
  ∀ c ∈ cs.head?, p c = false

theorem stops_nil (p : Char → Bool) : Stops p [] := by
  intro c hc
  cases hc

/-- A text stops at its first character if that is of another kind. -/
theorem stops_cons {p : Char → Bool} {c : Char} (hc : p c = false)
    (cs : List Char) : Stops p (c :: cs) := by
  intro d hd
  injection hd with hd
  rw [← hd]
  exact hc

/-- A run of a class is taken off whole if what follows does not prolong
it. -/
theorem takeWhile_append_stops {p : Char → Bool} {run rest : List Char}
    (hrun : ∀ c ∈ run, p c = true) (hrest : Stops p rest) :
    (run ++ rest).takeWhile p = run ∧ (run ++ rest).dropWhile p = rest := by
  rw [List.takeWhile_append_of_pos hrun, List.dropWhile_append_of_pos hrun]
  cases rest with
  | nil => exact ⟨List.append_nil run, rfl⟩
  | cons c rest =>
      have hc : p c = false := hrest c rfl
      rw [List.takeWhile_cons, List.dropWhile_cons, hc]
      exact ⟨List.append_nil run, rfl⟩

-- ============================================================ characters

theorem isNumeric_iff {c : Char} :
    isNumeric c = true ↔ 48 ≤ c.toNat ∧ c.toNat ≤ 57 := by
  unfold isNumeric
  rw [Bool.and_eq_true, decide_eq_true_iff, decide_eq_true_iff]
  exact Iff.rfl

/-- The letters, by number. -/
theorem isLetter_iff {c : Char} :
    isLetter c = true ↔
      97 ≤ c.toNat ∧ c.toNat ≤ 122 ∨ 65 ≤ c.toNat ∧ c.toNat ≤ 90 := by
  unfold isLetter
  rw [Bool.or_eq_true, Bool.and_eq_true, Bool.and_eq_true,
    decide_eq_true_iff, decide_eq_true_iff, decide_eq_true_iff,
    decide_eq_true_iff]
  exact Iff.rfl

/-- A digit is no letter. -/
theorem isLetter_of_isNumeric {c : Char} (hc : isNumeric c = true) :
    isLetter c = false := by
  have hbounds := isNumeric_iff.1 hc
  rw [Bool.eq_false_iff]
  intro hletter
  have := isLetter_iff.1 hletter
  omega

theorem isWordChar_of_isNumeric {c : Char} (hc : isNumeric c = true) :
    isWordChar c = true := by
  rw [isWordChar, hc, Bool.or_true]

/-- The name of a variable: a letter, then letters and digits. -/
def isName : List Char → Bool
  | [] => false
  | c :: cs => isLetter c && cs.all isWordChar

/-- The digits of a numeral. -/
def isDigits (cs : List Char) : Bool :=
  !cs.isEmpty && cs.all isNumeric

theorem isDigits_iff {cs : List Char} :
    isDigits cs = true ↔ cs ≠ [] ∧ ∀ c ∈ cs, isNumeric c = true := by
  unfold isDigits
  rw [Bool.and_eq_true, List.all_eq_true, Bool.not_eq_true',
    List.isEmpty_eq_false_iff]

-- ============================================================== lexemes

/-- A letter starts a word and a digit a numeral. -/
theorem lexeme?_wordChar {c : Char} (hc : isWordChar c = true)
    (cs : List Char) :
    lexeme? (c :: cs)
      = if isLetter c then
          some (.word (c :: cs.takeWhile isWordChar), cs.dropWhile isWordChar)
        else
          some (.numeral (c :: cs.takeWhile isNumeric),
            cs.dropWhile isNumeric) := by
  -- the characters with a lexeme of their own are neither
  unfold lexeme?
  split
  next h => injection h with h _; subst h; cases hc
  next h => injection h with h _; subst h; cases hc
  next h => injection h with h _; subst h; cases hc
  next h => injection h with h _; subst h; cases hc
  next d ds _ _ _ _ h =>
    injection h with hd hds
    subst hd hds
    have hspace : ¬ c = ' ' := by
      rintro rfl
      cases hc
    rw [if_neg hspace]
    cases hletter : isLetter c with
    | true => rfl
    | false =>
        unfold isWordChar at hc
        rw [hletter, Bool.false_or] at hc
        rw [hc]
        rfl
  next h => cases h

/-- A name with no letter or digit behind it is read as a word. -/
theorem lexeme?_word {cs rest : List Char} (hcs : isName cs = true)
    (hrest : Stops isWordChar rest) :
    lexeme? (cs ++ rest) = some (.word cs, rest) := by
  match cs with
  | [] => cases hcs
  | c :: cs =>
    unfold isName at hcs
    rw [Bool.and_eq_true, List.all_eq_true] at hcs
    obtain ⟨hc, hcs⟩ := hcs
    obtain ⟨htake, hdrop⟩ := takeWhile_append_stops hcs hrest
    have hword : isWordChar c = true := by
      rw [isWordChar, hc, Bool.true_or]
    rw [List.cons_append, lexeme?_wordChar hword, if_pos hc, htake, hdrop]

/-- Digits with no digit behind them are read as a numeral, also in front of
a letter. -/
theorem lexeme?_numeral {cs rest : List Char} (hcs : isDigits cs = true)
    (hrest : Stops isNumeric rest) :
    lexeme? (cs ++ rest) = some (.numeral cs, rest) := by
  match cs with
  | [] => cases hcs
  | c :: cs =>
    have hall : ∀ d ∈ c :: cs, isNumeric d = true := (isDigits_iff.1 hcs).2
    have hc : isNumeric c = true := hall c List.mem_cons_self
    obtain ⟨htake, hdrop⟩ := takeWhile_append_stops
      (fun d hd => hall d (List.mem_cons_of_mem _ hd)) hrest
    have hletter : ¬ isLetter c = true := by
      rw [isLetter_of_isNumeric hc]
      decide
    rw [List.cons_append, lexeme?_wordChar (isWordChar_of_isNumeric hc),
      if_neg hletter, htake, hdrop]

/-- One space is cut off alone if no other follows. -/
theorem lexeme?_space {rest : List Char} (hrest : Stops (· = ' ') rest) :
    lexeme? (' ' :: rest) = some (.space, rest) := by
  have hnone : ∀ c ∈ ([] : List Char), decide (c = ' ') = true := by simp
  have hdrop : rest.dropWhile (· = ' ') = rest :=
    (takeWhile_append_stops hnone hrest).2
  rw [show lexeme? (' ' :: rest)
    = some (.space, rest.dropWhile (· = ' ')) from rfl, hdrop]

/-- Cutting goes on behind the first lexeme. -/
theorem lexemes_of_lexeme? {cs rest : List Char} {x : Lexeme}
    (h : lexeme? cs = some (x, rest)) :
    lexemes cs = (lexemes rest).map (x :: ·) := by
  rw [lexemes]
  split
  next y rest' h' =>
    rw [h] at h'
    injection h' with h'
    injection h' with hx hrest
    subst hx hrest
    cases lexemes rest with
    | error stuck => rfl
    | ok xs => rfl
  next h' => rw [h] at h'; cases h'

theorem lexemes_nil : lexemes [] = .ok [] := by
  rw [lexemes]
  rfl

/-- A lexeme as the scanner makes it. -/
def Lexeme.isWhole : Lexeme → Bool
  | .word letters => isName letters
  | .numeral digits => isDigits digits
  | _ => true

/-- What is cut off is well formed. -/
theorem isWhole_of_lexeme? {cs rest : List Char} {x : Lexeme}
    (h : lexeme? cs = some (x, rest)) : x.isWhole = true := by
  unfold lexeme? at h
  split at h
  next => cases h; rfl
  next => cases h; rfl
  next => cases h; rfl
  next => cases h; rfl
  next c cs _ _ _ _ =>
    split at h
    next => cases h; rfl
    next =>
      split at h
      next hc =>
        cases h
        show (isLetter c && _) = true
        rw [hc, List.all_takeWhile]
        rfl
      next =>
        split at h
        next hc =>
          cases h
          show (isNumeric c && _) = true
          rw [hc, List.all_takeWhile]
          rfl
        next => cases h
  next => cases h

/-- All lexemes of a text are whole. -/
theorem isWhole_of_lexemes {cs : List Char} {xs : List Lexeme}
    (h : lexemes cs = .ok xs) : ∀ x ∈ xs, x.isWhole = true := by
  fun_induction lexemes cs generalizing xs with
  | case1 cs x rest hx ys hys ih =>
      injection h with h
      subst h
      intro y hy
      rcases List.mem_cons.1 hy with rfl | hy
      · exact isWhole_of_lexeme? hx
      · exact ih hys y hy
  | case2 => cases h
  | case3 =>
      injection h with h
      subst h
      intro y hy
      cases hy
  | case4 => cases h

-- =============================================================== tokens

/-- The words that are no names. -/
def keywords : List String := ["and", "or", "not", "forall", "exists"]

/-- The scanner's keywords are these. -/
theorem keyword?_eq_none_iff {letters : List Char} :
    keyword? letters = none ↔ String.ofList letters ∉ keywords := by
  constructor
  · intro h hmem
    have hkey : ∀ w ∈ keywords, keyword? w.toList ≠ none := by decide
    refine hkey _ hmem ?_
    rw [String.toList_ofList]
    exact h
  · intro h
    unfold keyword?
    split
    next => exact absurd (by decide) h
    next => exact absurd (by decide) h
    next => exact absurd (by decide) h
    next => exact absurd (by decide) h
    next => exact absurd (by decide) h
    next => rfl

end Deduction.Token

namespace Deduction

/-- Whether an atom can be written: a variable by a name that is no
keyword, a constant if it is not negative. -/
def Atom.isProper : Atom → Bool
  | .var name => Token.isName name.toList && !Token.keywords.contains name
  | .const n => decide (0 ≤ n)

namespace Token

/-- Reading on from a number, each digit is worth a place. -/
theorem foldl_digits_lt {digits : List Char}
    (h : ∀ c ∈ digits, isNumeric c = true) (n : Nat) :
    digits.foldl (fun n c => 10 * n + (c.toNat - '0'.toNat)) n
      < (n + 1) * Nat.pow 10 digits.length := by
  induction digits generalizing n with
  | nil => simp
  | cons c digits ih =>
      have hc : c.toNat - '0'.toNat ≤ 9 := by
        have hbounds := isNumeric_iff.1 (h c List.mem_cons_self)
        show c.toNat - 48 ≤ 9
        omega
      have hstep : 10 * n + (c.toNat - '0'.toNat) + 1 ≤ (n + 1) * 10 := by
        omega
      calc digits.foldl (fun n c => 10 * n + (c.toNat - '0'.toNat))
            (10 * n + (c.toNat - '0'.toNat))
          < (10 * n + (c.toNat - '0'.toNat) + 1)
              * Nat.pow 10 digits.length :=
            ih (fun d hd => h d (List.mem_cons_of_mem _ hd)) _
        _ ≤ (n + 1) * 10 * Nat.pow 10 digits.length :=
            Nat.mul_le_mul_right _ hstep
        _ = (n + 1) * Nat.pow 10 (digits.length + 1) := by
            rw [Nat.mul_assoc, Nat.mul_comm 10]
            rfl

/-- The value of a numeral is not longer than the numeral. -/
theorem length_toDigits_numeralValue {digits : List Char}
    (h : isDigits digits = true) :
    (Nat.toDigits 10 (numeralValue digits)).length ≤ digits.length := by
  obtain ⟨hne, hall⟩ := isDigits_iff.1 h
  have hpos : 0 < digits.length := List.length_pos_iff.2 hne
  -- shorter by the leading zeros, so all that is to be shown is a bound
  refine (Nat.length_toDigits_le_iff (by decide) hpos).2 ?_
  have hlt := foldl_digits_lt hall 0
  rw [Nat.zero_add, Nat.one_mul] at hlt
  exact hlt

theorem numeralValue_toDigits (n : Nat) :
    numeralValue (Nat.toDigits 10 n) = n :=
  Nat.ofDigitChars_ten_toDigits

/-- A token as the scanner makes it. -/
structure Scanned (t : Token) : Prop where
  loaded : t.isLoaded = true
  nameable : t.isNameable = true
  plain : t.isOperand = false → t.payload = none
  atom : ∀ a, Atom.ofToken t = some (.ok a) →
    a.isProper = true ∧ a.isShort = true

/-- A token that stands for no atom is one, if it carries nothing. -/
theorem scanned_of_kind {kind : Kind}
    (h : isOperand ⟨kind, none⟩ = false) : Scanned ⟨kind, none⟩ where
  loaded := by
    unfold isLoaded
    split
    next => rfl
    next => rfl
    next => rw [h]; rfl
  nameable := rfl
  plain _ := rfl
  atom a ha := by
    rw [isOperand_of_ofToken ha] at h
    cases h

/-- No keyword is an operand. -/
theorem isOperand_of_keyword? {letters : List Char} {kind : Kind}
    (h : keyword? letters = some kind) : isOperand ⟨kind, none⟩ = false := by
  unfold keyword? at h
  split at h
  next => cases h; rfl
  next => cases h; rfl
  next => cases h; rfl
  next => cases h; rfl
  next => cases h; rfl
  next => cases h

/-- A well formed lexeme makes such a token. -/
theorem scanned_of_token? {x : Lexeme} {t : Token} (hx : x.isWhole = true)
    (h : x.token? = .ok (some t)) : Scanned t := by
  cases x with
  | space => cases h
  | arrow => cases h; exact scanned_of_kind rfl
  | leftParen => cases h; exact scanned_of_kind rfl
  | rightParen => cases h; exact scanned_of_kind rfl
  | colon => cases h; exact scanned_of_kind rfl
  | word letters =>
      unfold Lexeme.token? at h
      dsimp only at h
      split at h
      next kind hkind =>
        cases h
        exact scanned_of_kind (isOperand_of_keyword? hkind)
      next hkind =>
        cases h
        refine ⟨rfl, rfl, ?_, ?_⟩
        · intro hplain
          cases hplain
        · intro a ha
          cases ha
          refine ⟨?_, rfl⟩
          show (isName (String.ofList letters).toList && _) = true
          rw [String.toList_ofList, show isName letters = true from hx,
            List.contains_eq_mem,
            decide_eq_false (keyword?_eq_none_iff.1 hkind)]
          rfl
  | numeral digits =>
      unfold Lexeme.token? at h
      dsimp only at h
      split at h
      next => cases h
      next hlen =>
        cases h
        have hvalue := length_toDigits_numeralValue
          (show isDigits digits = true from hx)
        have hshort : (Nat.toDigits 10 (numeralValue digits)).length
            ≤ Numeral.maxDigits := by omega
        refine ⟨rfl, decide_eq_true hshort, ?_, ?_⟩
        · intro hplain
          cases hplain
        · intro a ha
          cases ha
          refine ⟨?_, decide_eq_true hshort⟩
          exact decide_eq_true (Int.natCast_nonneg (numeralValue digits))

/-- The tokens of some lexemes are those of the first, which may be none,
and then those of the others. -/
theorem ofLexemes_cons_iff {x : Lexeme} {xs : List Lexeme}
    {ts : List Token} :
    ofLexemes (x :: xs) = .ok ts ↔
      ∃ first rest, x.token? = .ok first ∧ ofLexemes xs = .ok rest
        ∧ ts = first.toList ++ rest := by
  rw [ofLexemes]
  cases x.token? with
  | error e => simp
  | ok first =>
      cases ofLexemes xs with
      | error e => simp
      | ok rest => simp [eq_comm]

/-- Every token comes from a lexeme. -/
theorem token?_of_mem_ofLexemes {xs : List Lexeme} {ts : List Token}
    (h : ofLexemes xs = .ok ts) {t : Token} (ht : t ∈ ts) :
    ∃ x ∈ xs, x.token? = .ok (some t) := by
  induction xs generalizing ts with
  | nil =>
      injection h with h
      subst h
      cases ht
  | cons x xs ih =>
      obtain ⟨first, rest, hx, hxs, rfl⟩ := ofLexemes_cons_iff.1 h
      rcases List.mem_append.1 ht with ht | ht
      · refine ⟨x, List.mem_cons_self, ?_⟩
        rw [hx, Option.mem_toList.1 ht]
      · obtain ⟨y, hy, htoken⟩ := ih hxs ht
        exact ⟨y, List.mem_cons_of_mem _ hy, htoken⟩

/-- Every token of a text is as the scanner makes them. -/
theorem scanned_of_scan {text : String} {tokens : List Token}
    (h : scan text = .ok tokens) : ∀ t ∈ tokens, Scanned t := by
  intro t ht
  unfold scan at h
  dsimp only at h
  cases hxs : lexemes text.toList with
  | error stuck => rw [hxs] at h; cases h
  | ok xs =>
      rw [hxs] at h
      obtain ⟨x, hx, htoken⟩ := token?_of_mem_ofLexemes h ht
      exact scanned_of_token? (isWhole_of_lexemes hxs x hx) htoken

end Token

end Deduction
