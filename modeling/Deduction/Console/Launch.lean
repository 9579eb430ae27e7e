/-
Starting the console program: settings from the environment, a log file,
then the session. The terminal belongs to the session, so records never
go there.
-/
import Deduction.Console.Session
import Deduction.Log.Journal
import Deduction.Settings

namespace Deduction.Console

/-- What can go wrong before the session. -/
inductive LaunchError where
  | settings (cause : SettingError)
  | logging (cause : Log.SetupError)
  deriving DecidableEq, Repr

/-- The wording of an error. -/
def LaunchError.message : LaunchError → String
  | .settings cause => cause.message
  | .logging cause => cause.message

/-- The log and the goal for a session, or why there can be none. -/
def prepare (environment : String → Option Value) (stamp : String)
    (journal : Log.Journal) : Log.Journal × Except LaunchError Value :=
  match Settings.load environment Settings.defaultLead with
  | .error cause => (journal, .error (.settings cause))
  | .ok settings =>
    let request : Log.Journal.Request :=
      { program := "console", level := settings.logLevel
        folder := settings.logDir, terminal := false }
    match journal.setUp stamp request with
    | (journal, .error cause) => (journal, .error (.logging cause))
    | (journal, .ok _) => (journal, .ok settings.defaultGoal)

end Deduction.Console
