/-
From tokens to formulas, by precedence climbing.

A cursor stands between the tokens read and those still to come. An
operand is one token. `climb` extends an operand with every operator
that holds on to it strongly enough, reading the operator's right
operand at the operator's own right power. What an operand is depends on
the atoms wanted, so it is a parameter, an `AtomReader`.

A token is passed before it is judged: when the operand is refused, the
cursor already stands behind it (`ReadError.stop`). An error among the
tokens names the token at fault; if that cannot be named, the attempt to
do so is what goes wrong (`ReadError.naming`).
-/
import Deduction.Formula
import Deduction.Token.Scan

namespace Deduction

-- ============================================================== errors

/-- Why a token that should be an atom has no usable payload. -/
inductive AtomError where
  /-- The payload of a constant is not a numeral. -/
  | numeral (cause : Numeral.Error)
  /-- The payload is missing or of the wrong type. -/
  | payload
  deriving DecidableEq, Repr

/-- Why a text or a list of tokens is not read as a formula. Positions
count from zero. -/
inductive ReadError where
  /-- The character in this column starts no token. -/
  | character (column : Nat)
  /-- The text has a numeral of this many digits. -/
  | numeralTooLong (digits : Nat)
  /-- The tokens end where an operand is due. -/
  | endOfInput (position : Nat)
  /-- A token that is no operand stands where one is due. -/
  | unexpected (token : Token) (position : Nat)
  /-- A token follows the whole formula. -/
  | extra (token : Token) (position : Nat)
  /-- A token is at fault that cannot be named, and the cursor stands
  here. -/
  | unnamed (cursor : Nat)
  /-- The operand at this position has no usable payload. -/
  | atom (cause : AtomError) (position : Nat)
  /-- The operator at this position is weighed against no number. -/
  | power (position : Nat)
  /-- The formula is nested too deeply. -/
  | tooDeep
  deriving DecidableEq, Repr

namespace ReadError

/-- The wording of an error. -/
def message : ReadError → String
  | .character column =>
    "Unexpected character at column " ++ toString (column + 1)
  | .numeralTooLong digits => (Numeral.Error.tooLong digits).message
  | .endOfInput _ => "Formula expected at end of input"
  | .unexpected token position =>
    "Unexpected " ++ token.describe ++ " at token " ++ toString (position + 1)
  | .extra token position =>
    "Extra " ++ token.describe ++ " after formula at token "
      ++ toString (position + 1)
  | .unnamed _ => Numeral.Error.unwritable.message
  | .atom (.numeral cause) _ => cause.message
  | .atom .payload _ => "payload expected"
  | .power _ => "power expected"
  | .tooDeep => "Formula too deeply nested"

/-- Where the cursor stands after an error among the tokens. -/
def stop : ReadError → Nat
  | .endOfInput position => position
  | .unexpected _ position => position + 1
  | .extra _ position => position
  | .unnamed cursor => cursor
  | .atom _ position => position + 1
  | .power position => position
  | .character _ | .numeralTooLong _ | .tooDeep => 0

/-- An error that names a token, if the token can be named. -/
def naming (t : Token) (e : ReadError) : ReadError :=
  if t.isNameable then e else .unnamed e.stop

theorem naming_of_isNameable {t : Token} (h : t.isNameable = true)
    (e : ReadError) : naming t e = e :=
  if_pos h

end ReadError

-- ============================================================== cursor

/-- A place in a list of tokens. -/
structure Cursor where
  /-- How many tokens have been read. -/
  position : Nat
  /-- The tokens still to come. -/
  rest : List Token
  deriving DecidableEq, Repr

namespace Cursor

/-- The place before the first token. -/
def start (tokens : List Token) : Cursor := ⟨0, tokens⟩

/-- The place some way into a list of tokens. -/
def within (tokens : List Token) (position : Nat) : Cursor :=
  ⟨position, tokens.drop position⟩

/-- The next token, if there is one. -/
def peek (c : Cursor) : Option Token := c.rest.head?

/-- Whether all tokens have been read. -/
def atEnd (c : Cursor) : Bool := c.rest.isEmpty

/-- Reads the next token. At the end nothing changes. -/
def next (c : Cursor) : Option Token × Cursor :=
  match c.rest with
  | [] => (none, c)
  | t :: ts => (some t, ⟨c.position + 1, ts⟩)

end Cursor

-- ============================================================ operands

/-- Reads a token as an atom; nothing if the token is no operand. -/
abbrev AtomReader (α : Type) := Token → Option (Except AtomError α)

/-- The value of a constant's payload. -/
def Token.Payload.constant? : Option Token.Payload → Except AtomError Int
  | some (.text s) =>
    match Numeral.read s with
    | .ok n => .ok n
    | .error cause => .error (.numeral cause)
  | some (.int n) => .ok n
  | some (.bool b) => .ok (if b then 1 else 0)
  | none => .error .payload

/-- Identifiers are variables and need a name; constants need a value. -/
def Atom.ofToken : AtomReader Atom := fun t =>
  match t.kind with
  | .identifier =>
    match t.payload with
    | some (.text name) => some (.ok (.var name))
    | _ => some (.error .payload)
  | .constant => some ((Token.Payload.constant? t.payload).map .const)
  | _ => none

/-- The connective a token stands for. -/
def Token.Kind.connective? : Token.Kind → Option Connective
  | .and => some .and
  | .or => some .or
  | .implies => some .imp
  | _ => none

namespace Formula

variable {α : Type} (reader : AtomReader α)

/-- Reads one operand. -/
def operand : (c : Cursor) →
    Except ReadError (α × { d : Cursor // d.rest.length < c.rest.length })
  | ⟨p, []⟩ => .error (.endOfInput p)
  | ⟨p, t :: ts⟩ =>
    match reader t with
    | none => .error (.naming t (.unexpected t p))
    | some (.error cause) => .error (.atom cause p)
    | some (.ok a) => .ok (a, ⟨⟨p + 1, ts⟩, Nat.lt_succ_self _⟩)

-- ============================================================ climbing

/-- Extends a formula with the operators that follow it, as long as they
hold on to their left operand with at least the given power. -/
def climb (power : Int) (left : Formula α) : (c : Cursor) →
    Except ReadError
      (Formula α × { d : Cursor // d.rest.length ≤ c.rest.length })
  | ⟨p, []⟩ => .ok (left, ⟨⟨p, []⟩, Nat.le_refl _⟩)
  | ⟨p, t :: ts⟩ =>
    match t.kind.connective? with
    | none => .ok (left, ⟨⟨p, t :: ts⟩, Nat.le_refl _⟩)
    | some op =>
      if op.leftPower < power then
        .ok (left, ⟨⟨p, t :: ts⟩, Nat.le_refl _⟩)
      else
        match operand reader ⟨p + 1, ts⟩ with
        | .error e => .error e
        | .ok (a, ⟨c₁, h₁⟩) =>
          match climb op.rightPower (.atom a) c₁ with
          | .error e => .error e
          | .ok (right, ⟨c₂, h₂⟩) =>
            match climb power (.binary op left right) c₂ with
            | .error e => .error e
            | .ok (whole, ⟨c₃, h₃⟩) =>
              .ok (whole, ⟨c₃, by simp only [List.length_cons] at *; omega⟩)
termination_by c => c.rest.length
decreasing_by
  · simp only [List.length_cons] at *
    omega
  · simp only [List.length_cons] at *
    omega

/-- Reads an operand and everything that the given power lets follow. -/
def expression (power : Int) (c : Cursor) :
    Except ReadError (Formula α × Cursor) :=
  match operand reader c with
  | .error e => .error e
  | .ok (a, ⟨d, _⟩) =>
    match climb reader power (.atom a) d with
    | .error e => .error e
    | .ok (f, ⟨d', _⟩) => .ok (f, d')

/-- The whole power that lets the same operators follow as a number does.
The powers of operators are whole, so a broken number is rounded up, and
above and below all of them nothing more changes. -/
def wholePower : Number → Int
  | .rational q => q.ceil
  | .infinite true => 0
  | .infinite false => 11

/-- Reads an operand and everything that a plain value lets follow as
the power. A value that is no number is only noticed at an operator. -/
def expressionAt (power : Value) (c : Cursor) :
    Except ReadError (Formula α × Cursor) :=
  match power.number? with
  | some n => expression reader (wholePower n) c
  | none =>
    match operand reader c with
    | .error e => .error e
    | .ok (a, ⟨d, _⟩) =>
      if (d.peek.bind (·.kind.connective?)).isSome then
        .error (.power d.position)
      else .ok (.atom a, d)

/-- Reads a list of tokens as exactly one formula. -/
def parse (tokens : List Token) : Except ReadError (Formula α) :=
  match expression reader 0 (.start tokens) with
  | .error e => .error e
  | .ok (f, c) =>
    match c.rest with
    | [] => .ok f
    | t :: _ => .error (.naming t (.extra t c.position))

end Formula

end Deduction
