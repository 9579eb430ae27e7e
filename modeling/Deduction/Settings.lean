/-
Settings, and how the environment overrides them.

Every setting has a default and a name. A variable of that name, behind
a common lead, overrides it. What a variable means depends on the
default: a switch is on for a few words, a number is read as a numeral,
and everything else is taken as it is.
-/
import Deduction.Value

namespace Deduction

/-- Why a variable does not override a setting. -/
inductive SettingError where
  /-- A switch was given something that is not a text. -/
  | notText
  /-- A number was given something that is none. -/
  | notNumber (cause : Value.IntegerError)
  deriving DecidableEq, Repr

/-- The wording of an error. -/
def SettingError.message : SettingError → String
  | .notText => "text expected"
  | .notNumber cause => cause.message

namespace Setting

/-- The words that turn a switch on. -/
def onWords : List String := ["1", "true", "yes", "on"]

/-- Reads a switch. Case does not matter, nor do blanks at the ends. -/
def switch : Value → Except SettingError Bool
  | .text s =>
    .ok (onWords.contains (String.ofList ((Text.trim s.toList).map Char.toLower)))
  | _ => .error .notText

/-- Reads a number. -/
def number (v : Value) : Except SettingError Int :=
  match v.toInteger with
  | .ok n => .ok n
  | .error cause => .error (.notNumber cause)

/-- Reads a value in the way of a default. -/
def coerce (value default : Value) : Except SettingError Value :=
  match default with
  | .bool _ => (switch value).map .bool
  | .int _ => (number value).map .int
  | _ => .ok value

end Setting

/-- The settings. Those that are taken as they are need not be text. -/
structure Settings where
  debug : Bool := false
  defaultGoal : Value := .text "A or B -> A or B"
  host : Value := .text "127.0.0.1"
  logDir : Value := .text "logs"
  logLevel : Value := .text "INFO"
  port : Int := 5000
  secretKey : Value := .text "natded-dev"
  deriving Repr

namespace Settings

/-- What stands in front of the name of a setting in the environment. -/
def defaultLead : String := "NATDED_"

/-- Reads a variable, if it is there, or else keeps the default. -/
def override {α : Type} (environment : String → Option Value) (name : String)
    (read : Value → Except SettingError α) (default : α) :
    Except SettingError α :=
  match environment name with
  | none | some .null => .ok default
  | some v => read v

/-- The settings in an environment. They are read in the order of their
names, so the first bad one in that order is reported. -/
def load (environment : String → Option Value) (lead : String) :
    Except SettingError Settings := do
  let base : Settings := {}
  let look := fun name => environment (lead ++ name)
  let debug ← override look "DEBUG" Setting.switch base.debug
  let defaultGoal ← override look "DEFAULT_GOAL" .ok base.defaultGoal
  let host ← override look "HOST" .ok base.host
  let logDir ← override look "LOG_DIR" .ok base.logDir
  let logLevel ← override look "LOG_LEVEL" .ok base.logLevel
  let port ← override look "PORT" Setting.number base.port
  let secretKey ← override look "SECRET_KEY" .ok base.secretKey
  return { debug, defaultGoal, host, logDir, logLevel, port, secretKey }

/-- The settings by name. -/
def toValue (s : Settings) : Value :=
  .object
    [("DEBUG", .bool s.debug), ("DEFAULT_GOAL", s.defaultGoal),
     ("HOST", s.host), ("LOG_DIR", s.logDir), ("LOG_LEVEL", s.logLevel),
     ("PORT", .int s.port), ("SECRET_KEY", s.secretKey)]

end Settings

end Deduction
