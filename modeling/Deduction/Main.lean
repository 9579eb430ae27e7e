/-
The console program on a terminal. The terminal is expected to send keys
as they are typed (`stty raw -echo`); its size is taken from LINES and
COLUMNS in the environment.
-/
import Deduction.Console.Ansi
import Deduction.Console.Launch

namespace Deduction.Main

open Console

/-- The part of the environment that settings are read from. -/
def environment : IO (String → Option Value) := do
  let mut found : List (String × Value) := []
  for name in ["DEBUG", "DEFAULT_GOAL", "HOST", "LOG_DIR", "LOG_LEVEL",
      "PORT", "SECRET_KEY"] do
    let name := Settings.defaultLead ++ name
    if let some text ← IO.getEnv name then
      found := (name, .text text) :: found
  return fun name => Value.lookup name found

/-- A size of the terminal. -/
def size (name : String) (default : Int) : IO Int := do
  match ← IO.getEnv name with
  | some text =>
    match Numeral.read text with
    | .ok n => return n
    | .error _ => return default
  | none => return default

/-- Makes the folders and files of a journal. -/
def store (journal : Log.Journal) : IO Unit := do
  for folder in journal.disk.folders do
    IO.FS.createDirAll ("/".intercalate folder)
  for (place, content) in journal.disk.files do
    IO.FS.writeFile ("/".intercalate place) content

/-- Sends the calls that are due and forgets them. -/
def flush (layout : Layout) (turn : Session.Turn) : IO (Layout × Session.Turn) := do
  let (text, layout) := Ansi.renderAll layout turn.screen.calls
  let output ← IO.getStdout
  output.putStr text
  output.flush
  return (layout, { turn with screen := { turn.screen with calls := [] } })

/-- Feeds keys to the session until it ends. -/
partial def loop (layout : Layout) (turn : Session.Turn) : IO UInt32 := do
  let (layout, turn) ← flush layout turn
  match turn.next with
  | .done _ => return 0
  | .failed cause =>
    IO.eprintln cause.message
    return 1
  | .wait session =>
    let bytes ← (← IO.getStdin).read 16
    if bytes.isEmpty then return 1
    let key := Ansi.keystroke ((String.fromUTF8? bytes).getD "")
    loop layout (Session.step Goal.depthLimit (turn.screen.press key) session key)

/-- Prepares a session and runs it. -/
def run : IO UInt32 := do
  let stamp := toString (← IO.monoMsNow)
  let (journal, prepared) :=
    Console.prepare (← environment) stamp (.initial .empty)
  store journal
  match prepared with
  | .error cause =>
    IO.eprintln cause.message
    return 1
  | .ok goal =>
    loop [] (Session.startWith Goal.depthLimit (← size "LINES" 24)
      (← size "COLUMNS" 80) goal)

end Deduction.Main

def main : IO UInt32 := Deduction.Main.run
