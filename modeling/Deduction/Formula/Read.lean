/-
From text to goals.

A goal is a formula over variables and constants. Reading one scans the
text, parses the tokens and refuses what is nested deeper than a limit,
which the caller gives. The parser itself enters only the right operands
of implications, so it may accept a goal that is too deep to be shown;
`Goal.parse` stops there and `Goal.read` refuses such a goal too. Each
attempt to read is reported in the log.

Most errors are the typist's and are shown to them
(`ReadError.isReported`). A numeral of too many digits is not among
them: it ends whatever was being done. Nor is a token that cannot be
named, but the tokens of a text all can.
-/
import Deduction.Formula.Climb
import Deduction.Log

namespace Deduction

/-- A formula that can be typed in. -/
abbrev Goal := Formula Atom

/-- Whether an error is shown to the one who typed the text. -/
def ReadError.isReported : ReadError → Bool
  | .character _ | .endOfInput _ | .unexpected _ _ | .extra _ _ | .tooDeep => true
  | .numeralTooLong _ | .unnamed _ | .atom _ _ | .power _ => false

-- =============================================================== depth

/-- How many implications have been entered by the time so many tokens
have been read. Each one nests the parser a level deeper. -/
def nesting (tokens : List Token) (position : Nat) : Nat :=
  (tokens.take position).countP fun t => t.kind = .implies

/-- Parses tokens with a limited number of implications. An error behind
too many of them is never reached. -/
def Formula.parseWithin {α : Type} (reader : AtomReader α) (limit : Nat)
    (tokens : List Token) : Except ReadError (Formula α) :=
  match Formula.parse reader tokens with
  | .ok f =>
    if limit < nesting tokens tokens.length then .error .tooDeep else .ok f
  | .error e =>
    if limit < nesting tokens e.stop then .error .tooDeep else .error e

-- ============================================================= reading

/-- What a goal is read from: its characters, and how they are shown in
the log. -/
structure Source where
  chars : String
  shown : String
  deriving DecidableEq, Repr

/-- A text as a source. -/
def Source.ofText (s : String) : Source :=
  ⟨s, Text.quoted s⟩

/-- A plain value as a source. An empty array or object is read like an
empty text; other values that are not text cannot be read. -/
def Source.ofValue? : Value → Option Source
  | .text s => some (.ofText s)
  | .array [] => some ⟨"", Value.quoted (.array [])⟩
  | .object [] => some ⟨"", Value.quoted (.object [])⟩
  | _ => none

namespace Goal

/-- The depth up to which goals are accepted. A goal is shown before it is
accepted, which takes two of the frames on the stack for each nested
connective. -/
def depthLimit : Nat := 489

/-- Scans a text, with the errors of reading. -/
def scan (text : String) : Except ReadError (List Token) :=
  match Token.scan text with
  | .ok tokens => .ok tokens
  | .error (.character column) => .error (.character column)
  | .error (.numeralTooLong digits) => .error (.numeralTooLong digits)

/-- Parses a text. The goal may be deeper than the limit on the left. -/
def parse (limit : Nat) (text : String) : Except ReadError Goal :=
  match scan text with
  | .error e => .error e
  | .ok tokens => Formula.parseWithin Atom.ofToken limit tokens

/-- Reads a text as a goal of limited depth. -/
def read (limit : Nat) (text : String) : Except ReadError Goal :=
  match parse limit text with
  | .error e => .error e
  | .ok f => if limit < f.depth then .error .tooDeep else .ok f

-- ================================================================= log

/-- How much of a text that is nested too deeply the log shows. -/
def shownWidth : Nat := 40

/-- What the scanner reports. -/
def scanLog (source : Source) : Except ReadError Goal → List Log.Record
  | .error (.character column) =>
    [⟨.scanning, .debug,
      "lexing failed at column " ++ toString column ++ " of " ++ source.shown⟩]
  | _ => []

/-- What the parser reports. -/
def parseLog (source : Source) : Except ReadError Goal → List Log.Record
  | .ok f => [⟨.parsing, .debug, "parsed " ++ f.text⟩]
  | .error .tooDeep =>
    [⟨.parsing, .debug,
      "formula too deeply nested: "
        ++ String.ofList (source.shown.toList.take shownWidth) ++ "..."⟩]
  | .error e =>
    if e.isReported then
      [⟨.parsing, .debug,
        "unable to parse " ++ source.shown ++ ": " ++ e.message⟩]
    else []

/-- The log of reading a source. -/
def readLog (limit : Nat) (source : Source) : List Log.Record :=
  let outcome := read limit source.chars
  scanLog source outcome ++ parseLog source outcome

end Goal

end Deduction
