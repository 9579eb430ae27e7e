/-
The texts of a token list.

A token has a spelling, or many: a numeral may have leading zeros. A text
of some tokens is made of their spellings, in order, and of spaces
wherever one likes. Only where a token would run on into the next must
there be a space between the two (`clings`): a word takes in a word or a
numeral that follows, a numeral takes in a numeral.

These are the texts that the scanner reads as those tokens, and there are
no others. The scanner decides by the next character whether a lexeme goes
on, and a spelling begins with a character that tells what kind of token
it is the spelling of. So a space is missing just where the cut would fall
in the wrong place (`stops_iff`).
-/
import Mathlib.Data.List.Induction
import Deduction.Proofs.RoundTrip

namespace Deduction.Token

-- ============================================================ spellings

/-- The keyword or the sign of a kind that carries nothing. -/
def Kind.sign? : Kind → Option (List Char)
  | .forAll => some ['f', 'o', 'r', 'a', 'l', 'l']
  | .thereIs => some ['e', 'x', 'i', 's', 't', 's']
  | .and => some ['a', 'n', 'd']
  | .or => some ['o', 'r']
  | .not => some ['n', 'o', 't']
  | .implies => some ['-', '>']
  | .leftParen => some ['(']
  | .rightParen => some [')']
  | .colon => some [':']
  | .iff | .identifier | .constant => none

/-- The spellings of a token. A name is spelled as it is, and a constant
in decimal, after any number of zeros as long as the numeral is not too
long to be read. -/
inductive Spells : Token → List Char → Prop
  | sign {kind : Kind} {cs : List Char} (h : kind.sign? = some cs) :
      Spells ⟨kind, none⟩ cs
  | name {letters : List Char} (hname : isName letters = true)
      (hword : String.ofList letters ∉ keywords) :
      Spells ⟨.identifier, some (.text (String.ofList letters))⟩ letters
  | numeral (zeros n : Nat)
      (h : zeros + (Nat.toDigits 10 n).length ≤ Numeral.maxDigits) :
      Spells ⟨.constant, some (.int n)⟩
        (List.replicate zeros '0' ++ Nat.toDigits 10 n)

/-- Whether a token has a spelling at all, numerals of any length counted:
an identifier has a proper name, a constant is not negative, nothing else
carries anything, and there is no equivalence. -/
def isSpellable (t : Token) : Bool :=
  match t.kind, t.payload with
  | .identifier, some (.text name) =>
    isName name.toList && !keywords.contains name
  | .constant, some (.int n) => decide (0 ≤ n)
  | kind, none => kind.sign?.isSome
  | _, _ => false

/-- A token spelled with letters: a keyword or a name. -/
def isWord (t : Token) : Bool :=
  match t.kind with
  | .forAll | .thereIs | .and | .or | .not | .identifier => true
  | _ => false

def isNumeral (t : Token) : Bool :=
  t.kind = .constant

/-- Whether the first token would run on into the second if there were no
space between them: a word into a word or a numeral, a numeral into a
numeral. -/
def clings (t u : Token) : Bool :=
  if t.isWord then u.isWord || u.isNumeral else t.isNumeral && u.isNumeral

/-- The texts of a list of tokens. -/
inductive Written : List Token → List Char → Prop
  | nil : Written [] []
  | space {ts : List Token} {cs : List Char} (h : Written ts cs) :
      Written ts (' ' :: cs)
  | token {t : Token} {ts : List Token} {spelling cs : List Char}
      (hspelling : Spells t spelling)
      (hparted : ∀ u ∈ ts.head?, t.clings u = true → cs.head? = some ' ')
      (h : Written ts cs) : Written (t :: ts) (spelling ++ cs)

-- ============================================================= numerals

/-- A digit is the numeral of its value. -/
theorem toDigits_digit {c : Char} (hc : isNumeric c = true) :
    Nat.toDigits 10 (c.toNat - '0'.toNat) = [c] := by
  have hbounds := isNumeric_iff.1 hc
  have hzero : '0'.toNat = 48 := rfl
  have hlt : c.toNat - '0'.toNat < 10 := by omega
  rw [Nat.toDigits_of_lt_base hlt]
  congr 1
  apply Char.toNat_inj.mp
  rw [Nat.toNat_digitChar_of_lt_ten hlt]
  omega

/-- A numeral is its value in decimal behind some zeros. -/
theorem exists_zeros {digits : List Char} (h : isDigits digits = true) :
    ∃ zeros, digits = List.replicate zeros '0'
      ++ Nat.toDigits 10 (numeralValue digits) := by
  -- digits are read from the left, so the last one is taken off
  induction digits using List.reverseRecOn with
  | nil => cases h
  | append_singleton digits c ih =>
      have hall := (isDigits_iff.1 h).2
      have hc : isNumeric c = true := hall c (by simp)
      have hvalue : numeralValue (digits ++ [c])
          = 10 * numeralValue digits + (c.toNat - '0'.toNat) := by
        rw [numeralValue, List.foldl_append]
        rfl
      cases digits with
      | nil =>
          refine ⟨0, ?_⟩
          rw [hvalue, show numeralValue [] = 0 from rfl, Nat.mul_zero,
            Nat.zero_add, toDigits_digit hc]
          rfl
      | cons d digits =>
          have hbefore : ∀ e ∈ d :: digits, isNumeric e = true :=
            fun e he => hall e (List.mem_append_left _ he)
          obtain ⟨zeros, hdigits⟩ :=
            ih (isDigits_iff.2 ⟨List.cons_ne_nil d digits, hbefore⟩)
          rw [hvalue]
          generalize numeralValue (d :: digits) = n at hdigits ⊢
          rw [hdigits]
          rcases Nat.eq_zero_or_pos n with rfl | hpos
          · refine ⟨zeros + 1, ?_⟩
            rw [Nat.mul_zero, Nat.zero_add, toDigits_digit hc,
              List.replicate_succ']
            rfl
          · refine ⟨zeros, ?_⟩
            have hdigit : c.toNat - '0'.toNat < 10 := by
              have hbounds := isNumeric_iff.1 hc
              have hzero : '0'.toNat = 48 := rfl
              omega
            rw [← Nat.toDigits_append_toDigits (by decide) hpos hdigit,
              toDigits_digit hc, List.append_assoc]

theorem numeralValue_zeros (zeros n : Nat) :
    numeralValue (List.replicate zeros '0' ++ Nat.toDigits 10 n) = n := by
  show Nat.ofDigitChars 10 _ 0 = n
  rw [Nat.ofDigitChars_append, Nat.ofDigitChars_replicate_zero,
    Nat.mul_zero]
  exact Nat.ofDigitChars_ten_toDigits

/-- Zeros before a number are digits, too. -/
theorem isDigits_zeros (zeros n : Nat) :
    isDigits (List.replicate zeros '0' ++ Nat.toDigits 10 n) = true := by
  obtain ⟨hne, hall⟩ := isDigits_iff.1 (isDigits_toDigits n)
  refine isDigits_iff.2 ⟨List.append_ne_nil_of_right_ne_nil _ hne, ?_⟩
  intro c hc
  rcases List.mem_append.1 hc with hc | hc
  · rw [List.eq_of_mem_replicate hc]
    rfl
  · exact hall c hc

-- =============================================================== the cut

/-- The characters that would prolong the spelling of a token. -/
def prolongs (t : Token) (c : Char) : Bool :=
  if t.isWord then isWordChar c else t.isNumeral && isNumeric c

/-- A spelling shows by its first character what it is the spelling of. -/
theorem Spells.first {u : Token} {spelling : List Char}
    (h : Spells u spelling) :
    ∃ c cs, spelling = c :: cs
      ∧ isWordChar c = (u.isWord || u.isNumeral)
      ∧ isNumeric c = u.isNumeral := by
  cases h with
  | @sign kind cs h =>
      cases kind <;> cases h <;> exact ⟨_, _, rfl, rfl, rfl⟩
  | name hname _ =>
      cases spelling with
      | nil => cases hname
      | cons c cs =>
          unfold isName at hname
          rw [Bool.and_eq_true] at hname
          have hnumeric : isNumeric c = false := by
            rw [Bool.eq_false_iff]
            intro hc
            rw [isLetter_of_isNumeric hc] at hname
            cases hname.1
          refine ⟨c, cs, rfl, ?_, hnumeric⟩
          rw [isWordChar, hname.1]
          rfl
  | numeral zeros n _ =>
      obtain ⟨hne, hall⟩ := isDigits_iff.1 (isDigits_zeros zeros n)
      cases hcs : List.replicate zeros '0' ++ Nat.toDigits 10 n with
      | nil => exact absurd hcs hne
      | cons c cs =>
          rw [hcs] at hall
          have hc := hall c List.mem_cons_self
          refine ⟨c, cs, rfl, ?_, hc⟩
          rw [isWordChar_of_isNumeric hc]
          rfl

/-- Where two tokens cling to each other there is a space between them,
just if what follows the first does not prolong it. -/
theorem stops_iff {t : Token} {ts : List Token} {cs : List Char}
    (h : Written ts cs) :
    Stops t.prolongs cs ↔
      ∀ u ∈ ts.head?, t.clings u = true → cs.head? = some ' ' := by
  have hspace : t.prolongs ' ' = false := by
    rw [prolongs, show isWordChar ' ' = false from rfl,
      show isNumeric ' ' = false from rfl, Bool.and_false]
    exact ite_self _
  cases h with
  | nil => exact ⟨fun _ u hu => (by cases hu), fun _ => stops_nil _⟩
  | space h => exact ⟨fun _ _ _ _ => rfl, fun _ => stops_cons hspace _⟩
  | @token u ts spelling cs hspelling _ h =>
      obtain ⟨c, more, rfl, hword, hnumeric⟩ := hspelling.first
      have hclings : t.prolongs c = t.clings u := by
        rw [prolongs, clings, hword, hnumeric]
      constructor
      · intro hstops v hv hcling
        cases hv
        rw [← hclings, hstops c rfl] at hcling
        cases hcling
      · intro hparted
        refine stops_cons ?_ _
        rw [hclings, Bool.eq_false_iff]
        intro hcling
        have hc : some c = some ' ' := hparted u rfl hcling
        cases hc
        rw [hspace] at hclings
        rw [← hclings] at hcling
        cases hcling

-- ============================================================== lexemes

/-- A spelling is cut off whole, and read as the token that it spells. -/
theorem lexeme?_of_spells {t : Token} {spelling rest : List Char}
    (h : Spells t spelling) (hrest : Stops t.prolongs rest) :
    ∃ x, lexeme? (spelling ++ rest) = some (x, rest)
      ∧ x.token? = .ok (some t) := by
  cases h with
  | @sign kind cs h =>
      cases kind with
      | forAll => cases h; exact ⟨_, lexeme?_word rfl hrest, rfl⟩
      | thereIs => cases h; exact ⟨_, lexeme?_word rfl hrest, rfl⟩
      | and => cases h; exact ⟨_, lexeme?_word rfl hrest, rfl⟩
      | or => cases h; exact ⟨_, lexeme?_word rfl hrest, rfl⟩
      | not => cases h; exact ⟨_, lexeme?_word rfl hrest, rfl⟩
      | implies => cases h; exact ⟨.arrow, rfl, rfl⟩
      | leftParen => cases h; exact ⟨.leftParen, rfl, rfl⟩
      | rightParen => cases h; exact ⟨.rightParen, rfl, rfl⟩
      | colon => cases h; exact ⟨.colon, rfl, rfl⟩
      | iff => cases h
      | identifier => cases h
      | constant => cases h
  | name hname hkey =>
      refine ⟨_, lexeme?_word hname hrest, ?_⟩
      simp only [Lexeme.token?, keyword?_eq_none_iff.2 hkey]
  | numeral zeros n hlength =>
      refine ⟨_, lexeme?_numeral (isDigits_zeros zeros n) hrest, ?_⟩
      have hshort : ¬ Numeral.maxDigits
          < (List.replicate zeros '0' ++ Nat.toDigits 10 n).length := by
        rw [List.length_append, List.length_replicate]
        omega
      rw [Lexeme.token?, if_neg hshort, numeralValue_zeros]

/-- What is left when a lexeme has been cut off a text. -/
def Lexeme.Leaves : Lexeme → List Char → List Char → Prop
  | .space, cs, rest => rest = cs.dropWhile (· = ' ')
  | .arrow, cs, rest => cs = '-' :: '>' :: rest
  | .leftParen, cs, rest => cs = '(' :: rest
  | .rightParen, cs, rest => cs = ')' :: rest
  | .colon, cs, rest => cs = ':' :: rest
  | .word letters, cs, rest => cs = letters ++ rest ∧ Stops isWordChar rest
  | .numeral digits, cs, rest => cs = digits ++ rest ∧ Stops isNumeric rest

theorem stops_dropWhile (p : Char → Bool) (cs : List Char) :
    Stops p (cs.dropWhile p) := by
  intro c hc
  have := List.head?_dropWhile_not p cs
  rw [Option.mem_def.1 hc] at this
  simpa using this

/-- What a lexeme leaves of a text: it stands at the front, and behind it
the text goes on with something that could not belong to it. -/
theorem leaves_of_lexeme? {cs rest : List Char} {x : Lexeme}
    (h : lexeme? cs = some (x, rest)) : x.Leaves cs rest := by
  unfold lexeme? at h
  split at h
  next => cases h; rfl
  next => cases h; rfl
  next => cases h; rfl
  next => cases h; rfl
  next c cs _ _ _ _ =>
    split at h
    next hc =>
      cases h
      show _ = (c :: cs).dropWhile _
      rw [List.dropWhile_cons, if_pos (decide_eq_true hc)]
    next =>
      split at h
      next =>
        cases h
        refine ⟨?_, stops_dropWhile _ _⟩
        rw [List.cons_append, List.takeWhile_append_dropWhile]
      next =>
        split at h
        next =>
          cases h
          refine ⟨?_, stops_dropWhile _ _⟩
          rw [List.cons_append, List.takeWhile_append_dropWhile]
        next => cases h
  next => cases h

/-- Only spaces make no token. -/
theorem eq_space_of_token? {x : Lexeme} (h : x.token? = .ok none) :
    x = .space := by
  cases x with
  | space => rfl
  | word letters =>
      unfold Lexeme.token? at h
      dsimp only at h
      split at h <;> cases h
  | numeral digits =>
      unfold Lexeme.token? at h
      dsimp only at h
      split at h <;> cases h
  | _ => cases h

/-- A keyword is the sign of its kind, and a letter or digit behind it would
prolong it. -/
theorem sign?_of_keyword? {letters : List Char} {kind : Kind}
    (h : keyword? letters = some kind) :
    kind.sign? = some letters ∧ prolongs ⟨kind, none⟩ = isWordChar := by
  unfold keyword? at h
  split at h
  next => cases h; exact ⟨rfl, rfl⟩
  next => cases h; exact ⟨rfl, rfl⟩
  next => cases h; exact ⟨rfl, rfl⟩
  next => cases h; exact ⟨rfl, rfl⟩
  next => cases h; exact ⟨rfl, rfl⟩
  next => cases h

/-- What makes a token is a spelling of it. -/
theorem spells_of_lexeme? {cs rest : List Char} {x : Lexeme} {t : Token}
    (hcut : lexeme? cs = some (x, rest)) (htoken : x.token? = .ok (some t)) :
    ∃ spelling, cs = spelling ++ rest ∧ Spells t spelling
      ∧ Stops t.prolongs rest := by
  have hwhole := isWhole_of_lexeme? hcut
  have hleaves := leaves_of_lexeme? hcut
  have hsign : Stops (fun _ => false) rest := fun _ _ => rfl
  cases x with
  | space => cases htoken
  | arrow => cases htoken; exact ⟨['-', '>'], hleaves, .sign rfl, hsign⟩
  | leftParen => cases htoken; exact ⟨['('], hleaves, .sign rfl, hsign⟩
  | rightParen => cases htoken; exact ⟨[')'], hleaves, .sign rfl, hsign⟩
  | colon => cases htoken; exact ⟨[':'], hleaves, .sign rfl, hsign⟩
  | word letters =>
      refine ⟨letters, hleaves.1, ?_⟩
      unfold Lexeme.token? at htoken
      dsimp only at htoken
      split at htoken
      next kind hkind =>
        cases htoken
        obtain ⟨hspelling, hprolongs⟩ := sign?_of_keyword? hkind
        rw [hprolongs]
        exact ⟨.sign hspelling, hleaves.2⟩
      next hkind =>
        cases htoken
        exact ⟨.name hwhole (keyword?_eq_none_iff.1 hkind), hleaves.2⟩
  | numeral digits =>
      refine ⟨digits, hleaves.1, ?_⟩
      unfold Lexeme.token? at htoken
      dsimp only at htoken
      split at htoken
      next => cases htoken
      next hshort =>
        cases htoken
        obtain ⟨zeros, hdigits⟩ := exists_zeros hwhole
        have hlength : zeros + (Nat.toDigits 10 (numeralValue digits)).length
            = digits.length := by
          conv_rhs => rw [hdigits, List.length_append, List.length_replicate]
        have hspells := Spells.numeral zeros (numeralValue digits) (by omega)
        rw [← hdigits] at hspells
        exact ⟨hspells, hleaves.2⟩

-- ============================================================= scanning

/-- The tokens that are made of characters, without regard to how errors
are reported. -/
def Yields (cs : List Char) (ts : List Token) : Prop :=
  ∃ xs, lexemes cs = .ok xs ∧ ofLexemes xs = .ok ts

/-- Scanning gives the tokens that a text yields. -/
theorem scan_eq_ok_iff_yields {text : String} {ts : List Token} :
    scan text = .ok ts ↔ Yields text.toList ts := by
  unfold scan Yields
  dsimp only
  cases lexemes text.toList with
  | error stuck => simp
  | ok xs => simp

theorem yields_nil {ts : List Token} : Yields [] ts ↔ ts = [] := by
  unfold Yields
  rw [lexemes_nil]
  simp [ofLexemes, eq_comm]

/-- Where a lexeme is cut off, the rest is read on its own. -/
theorem yields_of_lexeme? {cs rest : List Char} {x : Lexeme}
    {ts : List Token} (h : lexeme? cs = some (x, rest)) :
    Yields cs ts ↔ ∃ first more, x.token? = .ok first ∧ Yields rest more
      ∧ ts = first.toList ++ more := by
  unfold Yields
  rw [lexemes_of_lexeme? h]
  cases lexemes rest with
  | error stuck => simp [Except.map]
  | ok xs => simp [Except.map, ofLexemes_cons_iff]

theorem yields_space {cs : List Char} {ts : List Token} :
    Yields (' ' :: cs) ts ↔ Yields (cs.dropWhile (· = ' ')) ts := by
  have hcut : lexeme? (' ' :: cs) = some (.space, cs.dropWhile (· = ' ')) :=
    rfl
  rw [yields_of_lexeme? hcut]
  simp [Lexeme.token?]

/-- Spaces in front make no difference. -/
theorem yields_dropWhile {cs : List Char} {ts : List Token} :
    Yields (cs.dropWhile (· = ' ')) ts ↔ Yields cs ts := by
  cases cs with
  | nil => exact Iff.rfl
  | cons c cs =>
      rw [List.dropWhile_cons]
      split
      next hc =>
        rw [of_decide_eq_true hc]
        exact yields_space.symm
      next => exact Iff.rfl

/-- Spaces may be written before any tokens. -/
theorem Written.of_dropWhile {ts : List Token} {cs : List Char}
    (h : Written ts (cs.dropWhile (· = ' '))) : Written ts cs := by
  induction cs with
  | nil => exact h
  | cons c cs ih =>
      rw [List.dropWhile_cons] at h
      split at h
      next hc =>
        rw [of_decide_eq_true hc]
        exact .space (ih h)
      next => exact h

/-- The texts of some tokens make these tokens. -/
theorem Written.yields {ts : List Token} {cs : List Char}
    (h : Written ts cs) : Yields cs ts := by
  induction h with
  | nil => exact yields_nil.2 rfl
  | space _ ih => exact yields_space.2 (yields_dropWhile.2 ih)
  | @token t ts spelling cs hspelling hparted h ih =>
      obtain ⟨x, hcut, htoken⟩ :=
        lexeme?_of_spells hspelling ((stops_iff h).2 hparted)
      exact (yields_of_lexeme? hcut).2 ⟨some t, ts, htoken, ih, rfl⟩

/-- A text that yields tokens is a way to write them. The induction is over
the text, lexeme by lexeme: spaces are passed, and every other lexeme spells
a token that what follows does not prolong. -/
theorem written_of_yields {cs : List Char} {ts : List Token}
    (h : Yields cs ts) : Written ts cs := by
  obtain ⟨xs, hcs, hxs⟩ := h
  -- along the cuts, each of which makes a token or passes over spaces
  fun_induction lexemes cs generalizing xs ts with
  | case1 cs x rest hcut ys hys ih =>
      cases hcs
      obtain ⟨first, more, htoken, hmore, rfl⟩ := ofLexemes_cons_iff.1 hxs
      have hrest : Written more rest := ih _ hys hmore
      cases first with
      | some t =>
          obtain ⟨spelling, rfl, hspelling, hstops⟩ :=
            spells_of_lexeme? hcut htoken
          exact .token hspelling ((stops_iff hrest).1 hstops) hrest
      | none =>
          have hspace := leaves_of_lexeme? hcut
          rw [eq_space_of_token? htoken] at hspace
          refine Written.of_dropWhile ?_
          rw [← show rest = cs.dropWhile (· = ' ') from hspace]
          exact hrest
  | case2 => cases hcs
  | case3 cs _ hempty =>
      cases hcs
      cases hxs
      rw [List.isEmpty_iff.1 hempty]
      exact .nil
  | case4 => cases hcs

/-- Each of some tokens that can be written has a spelling. -/
theorem Written.spells {ts : List Token} {cs : List Char}
    (h : Written ts cs) : ∀ t ∈ ts, ∃ spelling, Spells t spelling := by
  induction h with
  | nil => intro t ht; cases ht
  | space _ ih => exact ih
  | token hspelling _ _ ih =>
      intro t ht
      rcases List.mem_cons.1 ht with rfl | ht
      · exact ⟨_, hspelling⟩
      · exact ih t ht

/-- Just the spellable tokens have spellings. -/
theorem Spells.isSpellable {t : Token} {spelling : List Char}
    (h : Spells t spelling) : t.isSpellable = true := by
  cases h with
  | @sign kind cs h => cases kind <;> cases h <;> rfl
  | name hname hkey =>
      show (isName (String.ofList spelling).toList && _) = true
      rw [String.toList_ofList, hname, List.contains_eq_mem,
        decide_eq_false hkey]
      rfl
  | numeral zeros n _ => exact decide_eq_true (Int.natCast_nonneg n)

/-- The scanner reads a text as some tokens just if it is one of their
texts, and it makes no tokens that cannot be spelled. -/
theorem scan_eq_ok_iff_written (text : String) (tokens : List Token) :
    (scan text = .ok tokens ↔ Written tokens text.toList)
      ∧ (scan text = .ok tokens → ∀ t ∈ tokens, t.isSpellable = true) := by
  have hiff : scan text = .ok tokens ↔ Written tokens text.toList :=
    scan_eq_ok_iff_yields.trans ⟨written_of_yields, Written.yields⟩
  refine ⟨hiff, ?_⟩
  intro hscan t ht
  obtain ⟨spelling, hspelling⟩ := (hiff.1 hscan).spells t ht
  exact hspelling.isSpellable

/-- A numeral with zeros in front and a keyword that follows it directly; the
name behind the keyword needs its space. -/
theorem scan_eq_ok_iff_written_joined :
    scan " 007and x1"
      = .ok [⟨.constant, some (.int 7)⟩, ⟨.and, none⟩,
          ⟨.identifier, some (.text "x1")⟩] := by
  have hnumeral : Spells ⟨.constant, some (.int 7)⟩ ['0', '0', '7'] :=
    .numeral 2 7 (by decide)
  have hkeyword : Spells ⟨.and, none⟩ ['a', 'n', 'd'] := .sign rfl
  have hname : Spells ⟨.identifier, some (.text "x1")⟩ ['x', '1'] :=
    .name rfl (by decide)
  have hwritten : Written [⟨.constant, some (.int 7)⟩, ⟨.and, none⟩,
      ⟨.identifier, some (.text "x1")⟩]
      [' ', '0', '0', '7', 'a', 'n', 'd', ' ', 'x', '1'] := by
    refine .space (.token hnumeral ?_ (.token hkeyword ?_
      (.space (.token hname ?_ .nil))))
    · intro u hu hcling
      cases hu
      cases hcling
    · intro u hu hcling
      rfl
    · intro u hu
      cases hu
  exact (scan_eq_ok_iff_written _ _).1.2 hwritten

end Deduction.Token
