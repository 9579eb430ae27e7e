/-
Starting the web front end: a log, the default goal, and where to serve.
-/
import Deduction.Log.Journal
import Deduction.Settings
import Deduction.Web.Session

namespace Deduction.Web

/-- Where and how the front end is served. -/
structure Address where
  host : Value
  port : Int
  debug : Bool

/-- What can go wrong before anything is served. -/
inductive LaunchError where
  | logging (cause : Log.SetupError)
  | goal (cause : Fault)
  deriving DecidableEq, Repr

/-- Sets up the log and the default goal: where to serve, and the state
to serve from. A default goal that is refused leaves no goal. -/
def prepare (limit : Nat) (settings : Settings) (stamp : String)
    (journal : Log.Journal) :
    Log.Journal × Except LaunchError (Address × Reply) :=
  let request : Log.Journal.Request :=
    { program := "web", level := settings.logLevel
      folder := settings.logDir, terminal := true }
  match journal.setUp stamp request with
  | (journal, .error cause) => (journal, .error (.logging cause))
  | (journal, .ok _) =>
    let reply := Session.empty.setGoal limit settings.defaultGoal
    match reply.fault with
    | some cause => (journal, .error (.goal cause))
    | none =>
      (journal, .ok (⟨settings.host, settings.port, settings.debug⟩, reply))

end Deduction.Web
