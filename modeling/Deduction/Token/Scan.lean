/-
From text to tokens.

Scanning goes in two stages. The first cuts the text into lexemes, each
as long as it can be, and stops at the first character that starts none;
it looks at characters only. The second turns lexemes into tokens, which
is where words become keywords and numerals become numbers. A character
that starts no lexeme is therefore found before any numeral is read.
-/
import Deduction.Token

namespace Deduction.Token

-- ============================================================= lexemes

/-- A piece of text that makes one token, or the space between two. -/
inductive Lexeme where
  | space
  | arrow
  | leftParen
  | rightParen
  | colon
  | word (letters : List Char)
  | numeral (digits : List Char)
  deriving DecidableEq, Repr

/-- An ASCII letter, which starts a word. -/
def isLetter (c : Char) : Bool :=
  'a' ≤ c && c ≤ 'z' || 'A' ≤ c && c ≤ 'Z'

/-- An ASCII digit, which starts a numeral. -/
def isNumeric (c : Char) : Bool :=
  '0' ≤ c && c ≤ '9'

/-- A character that continues a word. -/
def isWordChar (c : Char) : Bool :=
  isLetter c || isNumeric c

/-- The first lexeme of a text and what follows it, if the text starts
with one. -/
def lexeme? : List Char → Option (Lexeme × List Char)
  | '-' :: '>' :: cs => some (.arrow, cs)
  | '(' :: cs => some (.leftParen, cs)
  | ')' :: cs => some (.rightParen, cs)
  | ':' :: cs => some (.colon, cs)
  | c :: cs =>
    if c = ' ' then some (.space, cs.dropWhile (· = ' '))
    else if isLetter c then
      some (.word (c :: cs.takeWhile isWordChar), cs.dropWhile isWordChar)
    else if isNumeric c then
      some (.numeral (c :: cs.takeWhile isNumeric), cs.dropWhile isNumeric)
    else none
  | [] => none

/-- Dropping characters never makes a text longer. -/
theorem length_dropWhile_le (p : Char → Bool) (cs : List Char) :
    (cs.dropWhile p).length ≤ cs.length := by
  induction cs with
  | nil => simp
  | cons c cs ih =>
    simp only [List.dropWhile_cons]
    split
    · simp only [List.length_cons]
      omega
    · simp

/-- A lexeme takes up at least one character. -/
theorem length_lt_of_lexeme? {cs rest : List Char} {x : Lexeme}
    (h : lexeme? cs = some (x, rest)) : rest.length < cs.length := by
  unfold lexeme? at h
  split at h
  · cases h
    simp only [List.length_cons]
    omega
  · cases h
    simp
  · cases h
    simp
  · cases h
    simp
  · rename_i c cs' _ _ _ _
    simp only [List.length_cons]
    split at h
    · cases h
      exact Nat.lt_succ_of_le (length_dropWhile_le _ _)
    · split at h
      · cases h
        exact Nat.lt_succ_of_le (length_dropWhile_le _ _)
      · split at h
        · cases h
          exact Nat.lt_succ_of_le (length_dropWhile_le _ _)
        · cases h
  · cases h

/-- Cuts a text into lexemes. The error is what is left of the text from
the first character that starts no lexeme. -/
def lexemes (cs : List Char) : Except (List Char) (List Lexeme) :=
  match _h : lexeme? cs with
  | some (x, rest) =>
    match lexemes rest with
    | .ok xs => .ok (x :: xs)
    | .error stuck => .error stuck
  | none => if cs.isEmpty then .ok [] else .error cs
termination_by cs.length
decreasing_by exact length_lt_of_lexeme? _h

-- ============================================================== tokens

/-- Why a text is not cut into tokens. -/
inductive ScanError where
  /-- The character in this column, counted from zero, starts no token. -/
  | character (column : Nat)
  /-- A numeral has this many digits, which is too many. -/
  | numeralTooLong (digits : Nat)
  deriving DecidableEq, Repr

/-- The keywords. All other words are identifiers, `iff` among them. -/
def keyword? : List Char → Option Kind
  | ['a', 'n', 'd'] => some .and
  | ['o', 'r'] => some .or
  | ['n', 'o', 't'] => some .not
  | ['f', 'o', 'r', 'a', 'l', 'l'] => some .forAll
  | ['e', 'x', 'i', 's', 't', 's'] => some .thereIs
  | _ => none

/-- The value of a numeral made of ASCII digits. -/
def numeralValue (digits : List Char) : Nat :=
  digits.foldl (fun n c => 10 * n + (c.toNat - '0'.toNat)) 0

/-- The token of a lexeme; the space between tokens makes none. -/
def Lexeme.token? : Lexeme → Except ScanError (Option Token)
  | .space => .ok none
  | .arrow => .ok (some ⟨.implies, none⟩)
  | .leftParen => .ok (some ⟨.leftParen, none⟩)
  | .rightParen => .ok (some ⟨.rightParen, none⟩)
  | .colon => .ok (some ⟨.colon, none⟩)
  | .word letters =>
    match keyword? letters with
    | some kind => .ok (some ⟨kind, none⟩)
    | none => .ok (some ⟨.identifier, some (.text (String.ofList letters))⟩)
  | .numeral digits =>
    if Numeral.maxDigits < digits.length then
      .error (.numeralTooLong digits.length)
    else .ok (some ⟨.constant, some (.int (numeralValue digits))⟩)

/-- The tokens of a list of lexemes. -/
def ofLexemes : List Lexeme → Except ScanError (List Token)
  | [] => .ok []
  | x :: xs =>
    match x.token? with
    | .error e => .error e
    | .ok t =>
      match ofLexemes xs with
      | .error e => .error e
      | .ok ts => .ok (t.toList ++ ts)

/-- The tokens of a text, in order. -/
def scan (text : String) : Except ScanError (List Token) :=
  let cs := text.toList
  match lexemes cs with
  | .ok xs => ofLexemes xs
  | .error stuck => .error (.character (cs.length - stuck.length))

end Deduction.Token
