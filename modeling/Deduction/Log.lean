/-
Log records: what the parts of the workbench report about their work.
Where records go is decided elsewhere; here they are only values.
-/
namespace Deduction.Log

/-- The part of the workbench that reports. -/
inductive Area where
  | scanning
  | parsing
  | rules
  | console
  | web
  deriving DecidableEq, Repr

/-- How much a record matters. -/
inductive Severity where
  | debug
  | info
  deriving DecidableEq, Repr

/-- The number of a severity; records are kept from some number up. -/
def Severity.level : Severity → Int
  | .debug => 10
  | .info => 20

/-- One record. -/
structure Record where
  area : Area
  severity : Severity
  message : String
  deriving DecidableEq, Repr

end Deduction.Log
