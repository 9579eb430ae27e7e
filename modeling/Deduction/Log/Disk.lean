/-
The folders and files that a log needs.

A path is followed from the working folder name by name, and every
folder on the way has to be there, also one that is left again at once
through `..`. Folders are made one at a time. Asked for a folder that is
missing, the disk first makes those it is in, from the outside in, and
does not mind if one of them turns up along the way; but the folder
asked for has to be new. So `a/..` cannot be made: it is missing only as
long as `a` is.

Files are opened by the plain form of their path, in which `..` has
taken back the name before it, whether there is such a folder or not.
-/
import Deduction.Text.Quoted

namespace Deduction.Log

-- ============================================================== places

/-- A place on the disk: the names passed on the way to it from the
working folder. A place above the working folder begins with `..`, and
one reached from the root of the disk with an empty name. -/
abbrev Place := List String

namespace Place

/-- The folder a place is in. The root is in itself. -/
def parent (place : Place) : Place :=
  match place.reverse with
  | [] | ".." :: _ => place ++ [".."]
  | "" :: _ => place
  | _ :: rest => rest.reverse

/-- Follows one name of a path without a look at the disk. -/
def follow (place : Place) (name : String) : Place :=
  if name = "" || name = "." then place
  else if name = ".." then place.parent
  else place ++ [name]

/-- Where a path begins. -/
def origin (path : String) : Place :=
  if path.toList.head? = some '/' then [""] else []

/-- The place of a path in its plain form. -/
def ofPath (path : String) : Place :=
  (path.splitOn "/").foldl follow (origin path)

/-- Whether a place is below the working folder. -/
def isInside (place : Place) : Bool :=
  match place with
  | "" :: _ | ".." :: _ => false
  | _ => true

/-- Whether a place is there without anyone having made it: the working
folder, the folders it is in, and the root. -/
def isGiven (place : Place) : Bool :=
  place = [""] || place.all (· = "..")

end Place

-- ============================================================== errors

/-- Why a folder or a file cannot be made. -/
inductive DiskError where
  /-- Something is already there. -/
  | alreadyThere (path : String)
  /-- The path, or a name on it, is too long. -/
  | nameTooLong (path : String)
  /-- A folder on the way is missing. -/
  | noSuchFolder
  /-- The path has a zero character. -/
  | zeroCharacter
  deriving DecidableEq, Repr

/-- The wording of an error. -/
def DiskError.message : DiskError → String
  | .alreadyThere path => "[Errno 17] File exists: " ++ Text.quoted path
  | .nameTooLong path => "[Errno 36] File name too long: " ++ Text.quoted path
  | .noSuchFolder => "no such folder"
  | .zeroCharacter => "embedded null byte"

/-- How many bytes a name may have. -/
def maxNameSize : Nat := 255

/-- How many bytes a path may have. -/
def maxPathSize : Nat := 4095

/-- A path without zero characters and of an acceptable length. -/
def checkPath (path : String) : Except DiskError Unit :=
  if path.toList.contains '\x00' then .error .zeroCharacter
  else if maxPathSize < path.utf8ByteSize then .error (.nameTooLong path)
  else .ok ()

-- ================================================================ disk

/-- The folders and files made so far. -/
structure Disk where
  folders : List Place
  files : List (Place × String)
  deriving DecidableEq, Repr

namespace Disk

/-- A disk on which nothing has been made. -/
def empty : Disk := ⟨[], []⟩

/-- Whether a folder is there. -/
def hasFolder (d : Disk) (place : Place) : Bool :=
  place.isGiven || d.folders.contains place

/-- Follows one name of a path to a folder. -/
def enter (d : Disk) (path : String) (place : Place) (name : String) :
    Except DiskError Place :=
  if maxNameSize < name.utf8ByteSize then .error (.nameTooLong path)
  else if d.hasFolder (place.follow name) then .ok (place.follow name)
  else .error .noSuchFolder

/-- The folder that the names on a path lead to. -/
def walk (d : Disk) (path : String) (names : List String) :
    Except DiskError Place :=
  names.foldlM (d.enter path) (.origin path)

/-- The names on a path. -/
def names (path : String) : List String :=
  (path.splitOn "/").filter (· ≠ "")

/-- Whether a path leads to a folder. -/
def leadsToFolder (d : Disk) (path : String) : Bool :=
  match checkPath path, d.walk path (names path) with
  | .ok _, .ok _ => true
  | _, _ => false

-- ------------------------------------------------------------- folders

/-- Makes one folder, in a folder that has to be there. -/
def makeFolder (d : Disk) (path : String) : Except DiskError Disk := do
  checkPath path
  let place ← d.walk path (names path).dropLast
  match (names path).getLast? with
  | none | some "." | some ".." => .error (.alreadyThere path)
  | some name =>
    if maxNameSize < name.utf8ByteSize then .error (.nameTooLong path)
    else if d.hasFolder (place ++ [name]) then .error (.alreadyThere path)
    else .ok { d with folders := d.folders ++ [place ++ [name]] }

/-- The paths of the folders that a path passes through, from the outside
in: its beginnings up to a slash with more than slashes behind it. -/
def outerPaths (path : String) : List String :=
  let cs := path.toList
  (List.range cs.length).filterMap fun k =>
    let outer := cs.take k
    let rest := cs.drop k
    if rest.head? = some '/' && rest.any (· ≠ '/')
        && (outer.getLast?.any (· ≠ '/'))
    then some (String.ofList outer)
    else none

/-- Makes a folder on the way to another. It may be there by now, and
the folder itself once more is nothing to be made. -/
def makeOuter (d : Disk) (path : String) : Except DiskError Disk :=
  if (names path).getLast? = some "." then .ok d
  else
    match d.makeFolder path with
    | .error (.alreadyThere _) => .ok d
    | other => other

/-- Makes folders on the way until one cannot be made: the disk then, and
what went wrong. -/
def makeOuters (d : Disk) : List String → Disk × Option DiskError
  | [] => (d, none)
  | path :: paths =>
    match d.makeOuter path with
    | .ok d => d.makeOuters paths
    | .error e => (d, some e)

/-- The innermost paths of a list that lead to no folder. -/
def missing (d : Disk) (paths : List String) : List String :=
  (paths.reverse.takeWhile fun path => !d.leadsToFolder path).reverse

/-- Makes a folder and those it is in, as far as they are missing. -/
def makeFolders (d : Disk) (path : String) : Disk × Option DiskError :=
  let outer := d.missing (outerPaths path)
  match d.makeOuters outer with
  | (d, some e) => (d, some e)
  | (d, none) =>
    if !outer.isEmpty && (names path).getLast? = some "." then (d, none)
    else
      match d.makeFolder path with
      | .ok d => (d, none)
      | .error e => (d, some e)

-- --------------------------------------------------------------- files

/-- Makes an empty file, in a folder that has to be there. -/
def makeFile (d : Disk) (path : String) : Except DiskError Disk := do
  let place := Place.ofPath path
  checkPath ("/".intercalate place)
  let _ ← d.walk path (place.filter (· ≠ "")).dropLast
  if (place.getLast?.any fun name => maxNameSize < name.utf8ByteSize) then
    .error (.nameTooLong path)
  else .ok { d with files := d.files ++ [(place, "")] }

/-- Adds text at the end of a file. -/
def append (d : Disk) (place : Place) (text : String) : Disk :=
  { d with files := d.files.map fun (p, content) =>
      if p = place then (p, content ++ text) else (p, content) }

end Disk

end Deduction.Log
