/-
Showing a goal and reading it back.

The text of a goal has no brackets, so some goals cannot be read back:
those that are not shaped, and those with an atom that cannot be written.
All others can, and these are the canonical ones.

Reading back goes in the two stages of reading. The text of a goal whose
atoms are proper scans to its tokens in order (`scan_text`), because atoms
and operators stand between single spaces and none of them begins with
one. The tokens of a shaped goal are parsed as that goal
(`Formula.parse_tokens`). The other direction needs no inspection of
texts: whatever is read from any text is canonical (`isCanonical_of_parse`),
so a goal that is not is never the outcome.
-/
import Deduction.Proofs.Inference
import Deduction.Proofs.Scanning

namespace Deduction

open Token (Lexeme Stops isWordChar lexeme?)

-- ============================================================ lexemes

def Atom.lexeme : Atom → Lexeme
  | .var name => .word name.toList
  | .const n => .numeral (Nat.toDigits 10 n.toNat)

def Connective.lexeme : Connective → Lexeme
  | .and => .word ['a', 'n', 'd']
  | .or => .word ['o', 'r']
  | .imp => .arrow

/-- The lexemes of a goal as it is shown, the spaces among them. -/
def Formula.lexemes : Goal → List Lexeme
  | .atom a => [a.lexeme]
  | .binary op left right =>
    left.lexemes ++ .space :: op.lexeme :: .space :: right.lexemes

/-- The digits of a number are digits, and there are some. -/
theorem Token.isDigits_toDigits (n : Nat) :
    Token.isDigits (Nat.toDigits 10 n) = true := by
  unfold Token.isDigits
  rw [Bool.and_eq_true, List.all_eq_true]
  constructor
  · simp [Nat.toDigits_ne_nil]
  · intro c hc
    have hdigit := Nat.isDigit_of_mem_toDigits (by decide) (by decide) hc
    exact Token.isNumeric_iff.2 (Char.isDigit_iff_toNat.1 hdigit)

/-- The text of a constant that is not negative is its decimal notation. -/
theorem Atom.toList_text_const {n : Int} (hn : 0 ≤ n) :
    (Atom.text (.const n)).toList = Nat.toDigits 10 n.toNat := by
  show (toString n).toList = _
  rw [Int.toString_eq_repr, Int.repr_eq_if, if_pos hn, Nat.toList_repr]

/-- A proper atom is scanned whole. -/
theorem Atom.lexeme?_text {a : Atom} (ha : a.isProper = true)
    {rest : List Char} (hrest : Stops isWordChar rest) :
    lexeme? (a.text.toList ++ rest) = some (a.lexeme, rest) := by
  cases a with
  | var name =>
      unfold isProper at ha
      rw [Bool.and_eq_true] at ha
      exact Token.lexeme?_word ha.1 hrest
  | const n =>
      rw [toList_text_const (of_decide_eq_true ha)]
      refine Token.lexeme?_numeral (Token.isDigits_toDigits _) ?_
      intro c hc
      have hword := hrest c hc
      unfold isWordChar at hword
      rw [Bool.or_eq_false_iff] at hword
      exact hword.2

/-- An operator before a space is scanned whole. -/
theorem Connective.lexeme?_symbol (op : Connective) (rest : List Char) :
    lexeme? (op.symbol.toList ++ ' ' :: rest)
      = some (op.lexeme, ' ' :: rest) := by
  have hstop : Stops isWordChar (' ' :: rest) :=
    Token.stops_cons (by decide) rest
  cases op with
  | and => exact Token.lexeme?_word (by decide) hstop
  | or => exact Token.lexeme?_word (by decide) hstop
  | imp => rfl

/-- No space stands in front of the text of an atom. -/
theorem Atom.stops_text {a : Atom} (ha : a.isProper = true)
    {rest : List Char} (hrest : Stops isWordChar rest) :
    Stops (· = ' ') (a.text.toList ++ rest) := by
  have hscan := lexeme?_text ha hrest
  cases hcs : a.text.toList ++ rest with
  | nil => exact Token.stops_nil _
  | cons c cs =>
      refine Token.stops_cons (decide_eq_false ?_) cs
      rintro rfl
      -- a space would have been scanned as one
      rw [hcs] at hscan
      injection hscan with hscan
      injection hscan with hlexeme _
      cases a with
      | var name => cases hlexeme
      | const n => cases hlexeme

theorem Connective.stops_symbol (op : Connective) (rest : List Char) :
    Stops (· = ' ') (op.symbol.toList ++ rest) := by
  cases op with
  | and => exact Token.stops_cons (by decide) _
  | or => exact Token.stops_cons (by decide) _
  | imp => exact Token.stops_cons (by decide) _

namespace Formula

-- ============================================================ scanning

theorem allAtoms_binary {p : Atom → Bool} {op : Connective}
    {left right : Goal} :
    (binary op left right).allAtoms p = true ↔
      left.allAtoms p = true ∧ right.allAtoms p = true := by
  rw [allAtoms, Bool.and_eq_true]

/-- The text of a formula: the operator between single spaces. -/
theorem toList_text_binary (op : Connective) (left right : Goal) :
    (binary op left right).text.toList
      = left.text.toList
        ++ ' ' :: (op.symbol.toList ++ ' ' :: right.text.toList) := by
  show (left.text ++ " " ++ op.symbol ++ " " ++ right.text).toList = _
  simp only [String.toList_append, List.append_assoc]
  rfl

/-- A formula of proper atoms does not begin with a space. -/
theorem stops_text {f : Goal} (hf : f.allAtoms Atom.isProper = true)
    {rest : List Char} (hrest : Stops isWordChar rest) :
    Stops (· = ' ') (f.text.toList ++ rest) := by
  induction f generalizing rest with
  | atom a => exact Atom.stops_text hf hrest
  | binary op left right ihl ihr =>
      rw [toList_text_binary, List.append_assoc, List.cons_append]
      exact ihl (allAtoms_binary.1 hf).1 (Token.stops_cons (by decide) _)

/-- A formula of proper atoms is cut into its lexemes. -/
theorem lexemes_text {f : Goal} (hf : f.allAtoms Atom.isProper = true)
    {rest : List Char} (hrest : Stops isWordChar rest) :
    Token.lexemes (f.text.toList ++ rest)
      = (Token.lexemes rest).map (f.lexemes ++ ·) := by
  induction f generalizing rest with
  | atom a => exact Token.lexemes_of_lexeme? (Atom.lexeme?_text hf hrest)
  | binary op left right ihl ihr =>
      obtain ⟨hl, hr⟩ := allAtoms_binary.1 hf
      rw [toList_text_binary, List.append_assoc, List.cons_append,
        ihl hl (Token.stops_cons (by decide) _), List.append_assoc,
        List.cons_append,
        Token.lexemes_of_lexeme? (Token.lexeme?_space (op.stops_symbol _)),
        Token.lexemes_of_lexeme? (op.lexeme?_symbol _),
        Token.lexemes_of_lexeme?
          (Token.lexeme?_space (stops_text hr hrest)),
        ihr hr hrest]
      cases Token.lexemes rest with
      | error stuck => rfl
      | ok xs =>
          refine congrArg Except.ok ?_
          show left.lexemes ++ .space :: op.lexeme :: .space
            :: (right.lexemes ++ xs) = (binary op left right).lexemes ++ xs
          rw [lexemes, List.append_assoc]
          rfl

end Formula

/-- The lexeme of an atom gives its token back. A name gives it back since
it is no keyword, a number since it is short and not negative. -/
theorem Atom.token?_lexeme {a : Atom} (ha : a.isProper = true)
    (hshort : a.isShort = true) : a.lexeme.token? = .ok (some a.token) := by
  cases a with
  | var name =>
      unfold isProper at ha
      rw [Bool.and_eq_true, Bool.not_eq_true', List.contains_eq_mem,
        decide_eq_false_iff_not] at ha
      have hkeyword : Token.keyword? name.toList = none := by
        rw [Token.keyword?_eq_none_iff, String.ofList_toList]
        exact ha.2
      unfold lexeme Token.Lexeme.token?
      dsimp only
      rw [hkeyword, String.ofList_toList]
      rfl
  | const n =>
      have hn : 0 ≤ n := of_decide_eq_true ha
      have hlen : (Nat.toDigits 10 n.toNat).length ≤ Numeral.maxDigits := by
        rw [show n.toNat = n.natAbs by omega]
        exact of_decide_eq_true hshort
      unfold lexeme Token.Lexeme.token?
      dsimp only
      rw [if_neg (Nat.not_lt.2 hlen), Token.numeralValue_toDigits,
        Int.toNat_of_nonneg hn]
      rfl

theorem Connective.token?_lexeme (op : Connective) :
    op.lexeme.token? = .ok (some op.token) := by
  cases op <;> rfl

/-- Lexemes in two parts become tokens part by part. -/
theorem Token.ofLexemes_append {xs ys : List Lexeme} {ts us : List Token}
    (hxs : Token.ofLexemes xs = .ok ts) (hys : Token.ofLexemes ys = .ok us) :
    Token.ofLexemes (xs ++ ys) = .ok (ts ++ us) := by
  induction xs generalizing ts with
  | nil =>
      injection hxs with hxs
      subst hxs
      exact hys
  | cons x xs ih =>
      obtain ⟨first, rest, hx, hrest, rfl⟩ := Token.ofLexemes_cons_iff.1 hxs
      rw [List.append_assoc]
      exact Token.ofLexemes_cons_iff.2 ⟨first, rest ++ us, hx, ih hrest, rfl⟩

namespace Formula

/-- The lexemes of a formula give its tokens back. -/
theorem ofLexemes_lexemes {f : Goal} (hf : f.allAtoms Atom.isProper = true)
    (hshort : f.allAtoms Atom.isShort = true) :
    Token.ofLexemes f.lexemes = .ok f.tokens := by
  induction f with
  | atom a =>
      unfold lexemes Token.ofLexemes
      rw [Atom.token?_lexeme hf hshort]
      rfl
  | binary op left right ihl ihr =>
      obtain ⟨hl, hr⟩ := allAtoms_binary.1 hf
      obtain ⟨hlshort, hrshort⟩ := allAtoms_binary.1 hshort
      refine Token.ofLexemes_append (ihl hl hlshort) ?_
      unfold Token.ofLexemes Token.ofLexemes Token.ofLexemes
      rw [op.token?_lexeme, ihr hr hrshort]
      rfl

/-- The text of a goal scans to its tokens, if its atoms can be written
and read. -/
theorem scan_text {f : Goal} (hf : f.allAtoms Atom.isProper = true)
    (hshort : f.allAtoms Atom.isShort = true) :
    Token.scan f.text = .ok f.tokens := by
  have hcut := lexemes_text hf (Token.stops_nil isWordChar)
  rw [List.append_nil, Token.lexemes_nil] at hcut
  unfold Token.scan
  dsimp only
  rw [hcut]
  show Token.ofLexemes (f.lexemes ++ []) = _
  rw [List.append_nil]
  exact ofLexemes_lexemes hf hshort

-- =============================================================== depth

/-- The arrows among the tokens are those among the pairs. -/
theorem countP_tokens (f : Goal) :
    f.tokens.countP (fun t => t.kind = .implies)
      = f.pairs.countP (fun x => x.1 = .imp) := by
  have hatom : ∀ a : Atom, ¬ a.token.kind = .implies := by
    intro a
    cases a with
    | var name => exact Token.Kind.noConfusion
    | const n => exact Token.Kind.noConfusion
  have hop : ∀ op : Connective, op.token.kind = .implies ↔ op = .imp := by
    intro op
    cases op <;> decide
  have hpairs : ∀ xs : List (Connective × Atom),
      (pairTokens xs).countP (fun t => t.kind = .implies)
        = xs.countP (fun x => x.1 = .imp) := by
    intro xs
    induction xs with
    | nil => rfl
    | cons x xs ih =>
        obtain ⟨op, a⟩ := x
        simp only [pairTokens_cons, List.countP_cons, ih, hop,
          decide_eq_true_eq, hatom, if_false, Nat.add_zero]
  rw [tokens_eq, List.countP_cons, hpairs]
  simp only [decide_eq_true_eq, hatom, if_false, Nat.add_zero]

/-- Arrows nest to the right in a shaped formula, so it is at least as
deep as it has arrows. -/
theorem countP_pairs_le_depth {f : Goal} (hf : f.isShaped = true) :
    f.pairs.countP (fun x => x.1 = .imp) ≤ f.depth := by
  induction f with
  | atom a => exact Nat.le_refl 0
  | binary op left right ihl ihr =>
      obtain ⟨hl, hright, hls, hrs⟩ := isShaped_binary.1 hf
      have hleft : left.pairs.countP (fun x => x.1 = .imp) = 0 := by
        rw [List.countP_eq_zero]
        intro x hx
        simpa using arrowFree_of_not_isImp hls hl x hx
      have hsum : right.pairs.countP (fun x => x.1 = .imp) + 1
          ≤ (binary op left right).depth := by
        have := ihr hrs
        unfold depth
        omega
      rw [pairs, List.countP_append, hleft, List.countP_cons]
      split
      · omega
      · omega

end Formula

-- ======================================================== canonical goals

/-- Whether a goal can be read back from its text: it is shaped and its
atoms can be written. -/
def Goal.isCanonical (f : Goal) : Bool :=
  f.isShaped && f.allAtoms Atom.isProper

theorem Goal.isCanonical_iff {f : Goal} :
    f.isCanonical = true ↔
      f.isShaped = true ∧ f.allAtoms Atom.isProper = true := by
  rw [isCanonical, Bool.and_eq_true]

/-- A test holds of all atoms if it holds of those among the tokens. -/
theorem Formula.allAtoms_of_tokens {p : Atom → Bool} {f : Goal}
    (h : ∀ a : Atom, a.token ∈ f.tokens → p a = true) :
    f.allAtoms p = true := by
  induction f with
  | atom a => exact h a List.mem_cons_self
  | binary op left right ihl ihr =>
      refine allAtoms_binary.2 ⟨?_, ?_⟩
      · exact ihl fun a ha => h a (List.mem_append_left _ ha)
      · exact ihr fun a ha =>
          h a (List.mem_append_right _ (List.mem_cons_of_mem _ ha))

namespace Goal

/-- Tokens are parsed within a limit if they are parsed at all and have
no more arrows than the limit. -/
theorem parseWithin_eq_ok_iff {limit : Nat} {tokens : List Token} {f : Goal} :
    Formula.parseWithin Atom.ofToken limit tokens = .ok f ↔
      Formula.parse Atom.ofToken tokens = .ok f
        ∧ tokens.countP (fun t => t.kind = .implies) ≤ limit := by
  unfold Formula.parseWithin nesting
  rw [List.take_length]
  cases hparse : Formula.parse Atom.ofToken tokens with
  | error e =>
      dsimp only
      constructor
      · intro h
        split at h
        next => cases h
        next => cases h
      · rintro ⟨h, -⟩
        cases h
  | ok g =>
      dsimp only
      constructor
      · intro h
        split at h
        next => cases h
        next hlimit =>
          injection h with h
          exact ⟨by rw [h], Nat.not_lt.1 hlimit⟩
      · rintro ⟨h, hlimit⟩
        rw [if_neg (Nat.not_lt.2 hlimit)]
        exact h

/-- What reading a text without a mistake goes through. -/
theorem parse_eq_ok_iff {limit : Nat} {text : String} {f : Goal} :
    Goal.parse limit text = .ok f ↔
      ∃ tokens, Token.scan text = .ok tokens
        ∧ Formula.parse Atom.ofToken tokens = .ok f
        ∧ tokens.countP (fun t => t.kind = .implies) ≤ limit := by
  unfold Goal.parse Goal.scan
  cases hscan : Token.scan text with
  | error e =>
      constructor
      · intro h
        cases e with
        | character column => cases h
        | numeralTooLong digits => cases h
      · rintro ⟨tokens, h, -⟩
        cases h
  | ok tokens =>
      dsimp only
      rw [parseWithin_eq_ok_iff]
      constructor
      · intro h
        exact ⟨tokens, rfl, h⟩
      · rintro ⟨tokens', h, hparse⟩
        injection h with h
        rw [h]
        exact hparse

/-- Whatever is read is canonical, has the tokens that were scanned, and
no constant too long to be read again. -/
theorem isCanonical_of_parse {limit : Nat} {text : String} {f : Goal}
    (h : Goal.parse limit text = .ok f) :
    f.isCanonical = true ∧ f.allAtoms Atom.isShort = true
      ∧ f.tokens.countP (fun t => t.kind = .implies) ≤ limit := by
  obtain ⟨tokens, hscan, hparse, hlimit⟩ := parse_eq_ok_iff.1 h
  have hscanned := Token.scanned_of_scan hscan
  obtain ⟨htokens, hshaped⟩ :=
    Formula.tokens_of_parse (fun t ht => (hscanned t ht).loaded) hparse
  rw [Token.map_bare fun t ht => (hscanned t ht).plain] at htokens
  -- each atom of the goal was read from one of the tokens
  have hatom : ∀ a : Atom, a.token ∈ f.tokens →
      a.isProper = true ∧ a.isShort = true := by
    intro a ha
    rw [htokens] at ha
    exact (hscanned _ ha).atom a a.ofToken_token
  refine ⟨?_, ?_, ?_⟩
  · exact isCanonical_iff.2
      ⟨hshaped, Formula.allAtoms_of_tokens fun a ha => (hatom a ha).1⟩
  · exact Formula.allAtoms_of_tokens fun a ha => (hatom a ha).2
  · rw [htokens]
    exact hlimit

/-- A canonical goal is read back from its text, unless its arrows are
nested too deeply. -/
theorem parse_text {limit : Nat} {f : Goal} (hf : f.isCanonical = true)
    (hshort : f.allAtoms Atom.isShort = true)
    (hlimit : f.tokens.countP (fun t => t.kind = .implies) ≤ limit) :
    Goal.parse limit f.text = .ok f := by
  obtain ⟨hshaped, hproper⟩ := isCanonical_iff.1 hf
  exact parse_eq_ok_iff.2 ⟨f.tokens, Formula.scan_text hproper hshort,
    Formula.parse_tokens hshaped, hlimit⟩

/-- What is read is what is parsed, unless it is too deep to be shown. -/
theorem read_eq_ok_iff {limit : Nat} {text : String} {f : Goal} :
    Goal.read limit text = .ok f ↔
      Goal.parse limit text = .ok f ∧ f.depth ≤ limit := by
  unfold Goal.read
  cases Goal.parse limit text with
  | error e => simp
  | ok g =>
      dsimp only
      by_cases hdepth : limit < g.depth
      · rw [if_pos hdepth]
        constructor
        · nofun
        · rintro ⟨⟨⟩, hle⟩
          omega
      · rw [if_neg hdepth]
        constructor
        · rintro ⟨⟩
          exact ⟨rfl, Nat.le_of_not_lt hdepth⟩
        · exact fun h => h.1

/-- So a canonical goal is read back from its text, if it is not too
deep. -/
theorem read_text {limit : Nat} {f : Goal} (hf : f.isCanonical = true)
    (hshort : f.allAtoms Atom.isShort = true) (hdepth : f.depth ≤ limit) :
    Goal.read limit f.text = .ok f := by
  have hshaped : f.isShaped = true := (isCanonical_iff.1 hf).1
  refine read_eq_ok_iff.2 ⟨parse_text hf hshort ?_, hdepth⟩
  rw [Formula.countP_tokens]
  exact Nat.le_trans (Formula.countP_pairs_le_depth hshaped) hdepth

/-- The smallest goal with a proof. -/
def identity : Goal := .imp (.atom (.var "A")) (.atom (.var "A"))

theorem read_identity : Goal.read 5 identity.text = .ok identity :=
  read_text (by decide) (by decide) (by decide)

/-- A goal is read back from its text just if it is canonical; and all
that is ever read is canonical, so that reading is undone by showing. -/
theorem parse_text_iff :
    (∀ (f : Goal) (limit : Nat), f.allAtoms Atom.isShort = true →
      f.depth ≤ limit →
      ((∃ g, Goal.parse limit f.text = .ok g ∧ g.same f = true)
        ↔ f.isCanonical = true))
    ∧ ∀ (limit : Nat) (text : String) (g : Goal),
      Goal.parse limit text = .ok g →
      g.isCanonical = true ∧ Goal.parse limit g.text = .ok g := by
  refine ⟨?_, ?_⟩
  · intro f limit hshort hdepth
    constructor
    · rintro ⟨g, hparse, hsame⟩
      rw [← (Formula.same_iff_eq g f).1 hsame]
      exact (isCanonical_of_parse hparse).1
    · intro hf
      have hshaped : f.isShaped = true := (isCanonical_iff.1 hf).1
      refine ⟨f, parse_text hf hshort ?_, (Formula.same_iff_eq f f).2 rfl⟩
      rw [Formula.countP_tokens]
      exact Nat.le_trans (Formula.countP_pairs_le_depth hshaped) hdepth
  · intro limit text g hparse
    obtain ⟨hcanonical, hshort, hlimit⟩ := isCanonical_of_parse hparse
    exact ⟨hcanonical, parse_text hcanonical hshort hlimit⟩

/-- A goal with a numeral and two arrows. -/
def chained : Goal :=
  .imp (.or (.atom (.var "A")) (.atom (.const 42)))
    (.imp (.atom (.var "B2")) (.and (.atom (.var "B2")) (.atom (.var "iff"))))

/-- A variable with spaces in its name. -/
def spaced : Goal := .atom (.var "A and B")

/-- The first is read back, and what was read is read again; the second
is not. -/
theorem parse_text_iff_chained :
    chained.text = "A or 42 -> B2 -> B2 and iff"
      ∧ (∃ g, Goal.parse 3 chained.text = .ok g ∧ g.same chained = true
          ∧ g.isCanonical = true ∧ Goal.parse 3 g.text = .ok g)
      ∧ ¬ ∃ g, Goal.parse 3 spaced.text = .ok g ∧ g.same spaced = true := by
  refine ⟨by decide, ?_, ?_⟩
  · obtain ⟨g, hparse, hsame⟩ :=
      (parse_text_iff.1 chained 3 (by decide) (by decide)).2 (by decide)
    obtain ⟨hcanonical, hagain⟩ := parse_text_iff.2 3 chained.text g hparse
    exact ⟨g, hparse, hsame, hcanonical, hagain⟩
  · rw [parse_text_iff.1 spaced 3 (by decide) (by decide)]
    decide

end Goal

end Deduction
