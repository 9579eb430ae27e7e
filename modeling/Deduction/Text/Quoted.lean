/-
Quoted text: how a piece of text is shown inside a message or a log
record, so that its ends and its hidden characters can be seen.

The quote is single, unless the text has a single quote and no double
one. The quote in use and the backslash are escaped, the three common
controls go by name, and every other hidden character by its code point
in the shortest of three hexadecimal forms.
-/
import Deduction.Text.CharClass

namespace Deduction.Text

-- ========================================================= hexadecimal

/-- The code in lower-case hexadecimal, filled with zeros up to the
width. -/
def hex (width code : Nat) : List Char :=
  let digits := Nat.toDigits 16 code
  List.replicate (width - digits.length) '0' ++ digits

/-- The escape of a hidden character by its code point. -/
def escapeCode (code : Nat) : List Char :=
  if code < 0x100 then '\\' :: 'x' :: hex 2 code
  else if code < 0x10000 then '\\' :: 'u' :: hex 4 code
  else '\\' :: 'U' :: hex 8 code

-- ============================================================== quotes

/-- The quote that a text is put in. -/
def quoteFor (cs : List Char) : Char :=
  if cs.contains '\x27' && !cs.contains '\x22' then '\x22' else '\x27'

/-- One character, as it stands between the quotes. -/
def escape (quote c : Char) : List Char :=
  if c = quote || c = '\\' then ['\\', c]
  else if c = '\n' then ['\\', 'n']
  else if c = '\r' then ['\\', 'r']
  else if c = '\t' then ['\\', 't']
  else if isPrintable c then [c]
  else escapeCode c.toNat

/-- The text between quotes. -/
def quotedChars (cs : List Char) : List Char :=
  let quote := quoteFor cs
  quote :: cs.flatMap (escape quote) ++ [quote]

/-- The text between quotes, as a string. -/
def quoted (s : String) : String :=
  String.ofList (quotedChars s.toList)

end Deduction.Text
