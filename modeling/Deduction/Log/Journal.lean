/-
Where log records go.

A journal has a level below which records are dropped, and outlets with
levels of their own: a file, the terminal, or nowhere. Setting one up
makes a folder and a file, so a journal also holds what is on the disk.
The clock is not consulted: the stamp in the name of the file and the
time in front of each record are given.
-/
import Deduction.Log
import Deduction.Log.Disk
import Deduction.Number.Word
import Deduction.Value

namespace Deduction.Log

-- ============================================================== levels

/-- The named levels. -/
def namedLevels : List (String × Int) :=
  [("CRITICAL", 50), ("ERROR", 40), ("WARNING", 30), ("INFO", 20), ("DEBUG", 10),
   ("NOTSET", 0), ("FATAL", 50), ("WARN", 30)]

/-- The name of a level in records. -/
def levelName (level : Int) : String :=
  match namedLevels.find? fun entry => entry.2 = level with
  | some (name, _) => name
  | none => "Level " ++ toString level

/-- Why a journal cannot be set up. -/
inductive SetupError where
  /-- There is no level of that name. -/
  | unknownLevel (name : String)
  /-- The level is neither a name nor a whole number. -/
  | notALevel
  /-- The folder is not given by a text. -/
  | notAFolder
  /-- The folder is given by a number that is not even a handle. -/
  | notAHandle (above : Bool)
  /-- The folder or the file cannot be made. -/
  | disk (cause : DiskError)
  deriving DecidableEq, Repr

/-- The wording of an error. -/
def SetupError.message : SetupError → String
  | .unknownLevel name => "Unknown level: " ++ Text.quoted name
  | .notALevel => "not a level"
  | .notAFolder => "not a folder"
  | .notAHandle true => "fd is greater than maximum"
  | .notAHandle false => "fd is less than minimum"
  | .disk cause => cause.message

/-- The level that a plain value gives. -/
def level (v : Value) : Except SetupError Int :=
  match v with
  | .int n => .ok n
  | .bool b => .ok (if b then 1 else 0)
  | .text name =>
    match namedLevels.find? fun entry => entry.1 = name with
    | some (_, n) => .ok n
    | none => .error (.unknownLevel name)
  | _ => .error .notALevel

-- ============================================================= journal

/-- Where records go. -/
inductive Outlet where
  | file (place : Place)
  | terminal (level : Int)
  | nowhere
  deriving DecidableEq, Repr

/-- The level from which an outlet takes records. Files take errors
only. -/
def Outlet.level : Outlet → Int
  | .file _ => 40
  | .terminal level => level
  | .nowhere => 0

/-- The state of logging. -/
structure Journal where
  level : Int
  outlets : List Outlet
  disk : Disk
  /-- What has been written to the terminal. -/
  terminal : String
  deriving DecidableEq, Repr

namespace Journal

/-- Logging as it is before it is set up. -/
def initial (disk : Disk) : Journal := ⟨30, [], disk, ""⟩

-- --------------------------------------------------------------- setup

/-- What a journal is set up with. -/
structure Request where
  /-- The program that logs, which the file is named for. -/
  program : String
  level : Value
  /-- The folder of the file; without one there is no file. -/
  folder : Value
  terminal : Bool

/-- Whether a value asks for something: it is not null, nor false, nor
zero, nor empty. -/
def asksForSomething : Value → Bool
  | .null | .bool false | .int 0 | .text "" | .array [] | .object [] => false
  | .float x => x.toRat? != some 0
  | _ => true

/-- The path of a file in a folder. A file named from the root of the
disk is not in the folder. -/
def pathIn (folder file : String) : String :=
  if file.toList.head? = some '/' then file
  else if folder.toList.getLast? = some '/' then folder ++ file
  else folder ++ "/" ++ file

/-- Makes a folder unless there is one. -/
def openFolder (disk : Disk) (path : String) : Disk × Option DiskError :=
  if disk.leadsToFolder path then (disk, none) else disk.makeFolders path

/-- Makes the log file, if one is asked for, and gives its path. -/
def openFile (j : Journal) (stamp : String) (r : Request) :
    Journal × Except SetupError (Option (String × Outlet)) :=
  if !asksForSomething r.folder then (j, .ok none)
  else
    match r.folder with
    | .text folder =>
      match openFolder j.disk folder with
      | (disk, some e) => ({ j with disk }, .error (.disk e))
      | (disk, none) =>
        let path := pathIn folder (r.program ++ "_" ++ stamp ++ ".log")
        match disk.makeFile path with
        | .ok disk =>
          ({ j with disk }, .ok (some (path, .file (.ofPath path))))
        | .error e => ({ j with disk }, .error (.disk e))
    | .int n =>
      if Word.fits Word.handleBits n then (j, .error .notAFolder)
      else (j, .error (.notAHandle (0 < n)))
    | _ => (j, .error .notAFolder)

/-- Sets the journal up and gives the path of its file. The terminal's
level is looked at before any outlet is in place, the journal's own
level after all are; a level of null leaves the journal's as it was. -/
def setUp (j : Journal) (stamp : String) (r : Request) :
    Journal × Except SetupError (Option String) :=
  let (j, opened) := j.openFile stamp r
  match opened with
  | .error e => (j, .error e)
  | .ok file =>
    let terminal : Except SetupError (List Outlet) :=
      if r.terminal then (Log.level r.level).map fun n => [.terminal n]
      else .ok []
    match terminal with
    | .error e => (j, .error e)
    | .ok terminal =>
      let outlets := (file.map (·.2)).toList ++ terminal
      let j := { j with outlets := if outlets.isEmpty then [.nowhere] else outlets }
      match r.level with
      | .null => (j, .ok (file.map (·.1)))
      | v =>
        match Log.level v with
        | .error e => (j, .error e)
        | .ok n => ({ j with level := n }, .ok (file.map (·.1)))

-- ------------------------------------------------------------- records

/-- A record as a line of text. -/
def line (time : String) (level : Int) (message : String) : String :=
  time ++ " - " ++ levelName level ++ " - " ++ message ++ "\n"

/-- Writes a text to an outlet. -/
def write (text : String) (j : Journal) : Outlet → Journal
  | .file place => { j with disk := j.disk.append place text }
  | .terminal _ => { j with terminal := j.terminal ++ text }
  | .nowhere => j

/-- Takes a record down. It needs a level above zero that reaches the
journal's, and goes to the outlets whose level it reaches. -/
def keep (j : Journal) (time : String) (level : Int) (message : String) : Journal :=
  if 0 < level ∧ j.level ≤ level then
    (j.outlets.filter fun outlet => outlet.level ≤ level).foldl
      (write (line time level message)) j
  else j

/-- Takes the records of the program down. -/
def keepAll (j : Journal) (time : String) (records : List Record) : Journal :=
  records.foldl (fun j r => j.keep time r.severity.level r.message) j

end Journal

end Deduction.Log
