/-
Tokens: the words and signs of the formula language.

A token has a kind and may carry a payload, the name of an identifier or
the value of a constant. Tokens can also be given by hand, so a payload
may stand on any kind and be of any type; on an operator it only changes
how messages name the token. Quantifiers, negation, brackets and colons
are known as tokens though no formula is made of them. A token whose
payload is a number of too many digits cannot be named at all.
-/
import Deduction.Value

namespace Deduction

namespace Token

/-- The kinds of tokens. -/
inductive Kind where
  | forAll
  | thereIs
  | and
  | or
  | not
  | implies
  | iff
  | leftParen
  | rightParen
  | colon
  | identifier
  | constant
  deriving DecidableEq, Repr

/-- The name of a kind in messages. -/
def Kind.label : Kind → String
  | .forAll => "FORALL"
  | .thereIs => "EXISTS"
  | .and => "AND"
  | .or => "OR"
  | .not => "NOT"
  | .implies => "IMPLIES"
  | .iff => "IFF"
  | .leftParen => "LP"
  | .rightParen => "RP"
  | .colon => "COL"
  | .identifier => "ID"
  | .constant => "CONST"

/-- What a token carries. -/
inductive Payload where
  | text (s : String)
  | int (n : Int)
  | bool (b : Bool)
  deriving DecidableEq, Repr

/-- A payload as a plain value. -/
def Payload.toValue : Payload → Value
  | .text s => .text s
  | .int n => .int n
  | .bool b => .bool b

/-- The text of a payload. -/
def Payload.display (p : Payload) : String :=
  p.toValue.display

/-- Whether a payload has a text: a number must not be too long. -/
def Payload.isShort : Payload → Bool
  | .int n => Numeral.isShort n
  | .text _ | .bool _ => true

end Token

/-- A token of the formula language. -/
structure Token where
  kind : Token.Kind
  payload : Option Token.Payload := none
  deriving DecidableEq, Repr

/-- How messages name a token: by its payload, or else by its kind. -/
def Token.describe (t : Token) : String :=
  match t.payload with
  | some p => p.display
  | none => t.kind.label

/-- Whether messages can name a token. -/
def Token.isNameable (t : Token) : Bool :=
  t.payload.all Payload.isShort

end Deduction
