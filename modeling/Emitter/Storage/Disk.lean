import Emitter.Storage.Basic
import Emitter.Table

/-!
# Disks

A `Disk` is a file system as a value: entries by location, and the directory
that relative paths start from.

* `Disk.read`, `Disk.isFile` and `Disk.write` follow a path through existing
  directories;
* `Disk.makeDirectories` follows it and makes the directories that are missing;
* `..` leads to the directory above, and the root is above itself.

A path is followed step by step, so `a/../b` needs `a` to be there, and making it
makes `a`.
-/

namespace Emitter

/-- The names that lead from the root to an entry. -/
abbrev Location := List String

/-- What stands at a location. -/
inductive Entry where
  /-- A file; the content is missing when it is not text. -/
  | file (content : Option String)
  | directory
deriving DecidableEq, Repr

/-- A file system. -/
structure Disk where
  entries : Table Location Entry := Table.empty
  /-- Where relative paths start. -/
  workingDirectory : Location := []
deriving DecidableEq, Repr

namespace Disk

/-- The longest name, in bytes. -/
def nameLimit : Nat := 255

/-- The longest path, in bytes. -/
def pathLimit : Nat := 4095

/-- What stands at a location; the root is always there. -/
def entry? (d : Disk) (location : Location) : Option Entry :=
  if location = [] then some .directory else d.entries.find? location

/-- The disk with an entry put at a location. -/
def put (d : Disk) (location : Location) (entry : Entry) : Disk :=
  { d with entries := d.entries.insert location entry }

/-- Whether a text has the character that no name may have. -/
def hasNul (text : String) : Bool := text.toList.contains '\x00'

/-- Refuses a name that no entry can have. -/
def checkName (name : String) : Except StorageError Unit :=
  if nameLimit < name.utf8ByteSize then .error .tooLong else .ok ()

/-- Refuses a path that cannot be followed at all. -/
def checkPath (path : Path) : Except StorageError Unit :=
  if hasNul path.text then .error .malformedName
  else if path.text.isEmpty then .error .missing
  else if pathLimit < path.text.utf8ByteSize then .error .tooLong
  else .ok ()

/-- Enters a directory of a directory. -/
def enter (d : Disk) (location : Location) (name : String) : Except StorageError Location :=
  match d.entry? (location ++ [name]) with
  | some .directory => .ok (location ++ [name])
  | some (.file _) => .error .notDirectory
  | none => .error .missing

/-- Follows the steps to a directory. -/
def follow (d : Disk) : Location → List Component → Except StorageError Location
  | location, [] => .ok location
  | _, .root :: rest => follow d [] rest
  | location, .current :: rest => follow d location rest
  | location, .parent :: rest => follow d location.dropLast rest
  | location, .name name :: rest =>
    match checkName name with
    | .error e => .error e
    | .ok () =>
      match d.enter location name with
      | .error e => .error e
      | .ok location => follow d location rest

/-- Follows the steps to a directory and makes the directories that are missing.
The disk keeps what was made before a failure.

A directory is made from the last one that is there on.  So a file is in the way of
the directory to be made when it is the last step or when one was `made` before, and
in the way of getting there otherwise. -/
def makeWay (d : Disk) (made : Bool) :
    Location → List Component → Except StorageError Location × Disk
  | location, [] => (.ok location, d)
  | _, .root :: rest => makeWay d made [] rest
  | location, .current :: rest => makeWay d made location rest
  | location, .parent :: rest => makeWay d made location.dropLast rest
  | location, .name name :: rest =>
    match checkName name with
    | .error e => (.error e, d)
    | .ok () =>
      match d.enter location name with
      | .ok location => makeWay d made location rest
      | .error .missing =>
        makeWay (d.put (location ++ [name]) .directory) true (location ++ [name]) rest
      | .error e => (.error (if made || rest.isEmpty then .occupied else e), d)

/-- Makes a directory and those on the way to it.  The working directory, which has
no name of its own, is there. -/
def makeDirectories (d : Disk) (path : Path) : Except StorageError Unit × Disk :=
  if path.text.isEmpty then (.ok (), d)
  else
    match checkPath path with
    | .error e => (.error e, d)
    | .ok () =>
      let (result, d) := d.makeWay false d.workingDirectory path.components
      (result.map fun _ => (), d)

/-- The place of a file by its path.  The directory has to be there, the file need
not. -/
def locate (d : Disk) (path : Path) : Except StorageError Location := do
  checkPath path
  let location ← d.follow d.workingDirectory path.directory
  match path.fileName? with
  | none => throw .isDirectory
  | some name =>
    checkName name
    return location ++ [name]

/-- The content of the file at a path. -/
def fileAt (d : Disk) (path : Path) : Except StorageError (Option String) := do
  match d.entry? (← d.locate path) with
  | some (.file content) => return content
  | some .directory => throw .isDirectory
  | none => throw .missing

/-- Reads a text. -/
def read (d : Disk) (path : Path) : Except StorageError String := do
  match ← d.fileAt path with
  | some text => return text
  | none => throw .notText

/-- Whether a path is that of a file. -/
def isFile (d : Disk) (path : Path) : Bool :=
  match d.fileAt path with
  | .ok _ => true
  | .error _ => false

/-- Writes a text. -/
def write (d : Disk) (path : Path) (text : String) : Except StorageError Unit × Disk :=
  match d.locate path with
  | .error e => (.error e, d)
  | .ok place =>
    match d.entry? place with
    | some .directory => (.error .isDirectory, d)
    | _ => (.ok (), d.put place (.file (some text)))

/-- The texts of the files below a location, by their location from there. -/
def filesBelow (d : Disk) (location : Location) : List (Location × Option String) :=
  d.entries.entries.filterMap fun (place, entry) =>
    match entry with
    | .file content =>
      if location.isPrefixOf place then some (place.drop location.length, content) else none
    | .directory => none

end Disk

/-- Running on a disk that is carried along. -/
instance : Storage (StateM Disk) where
  read path := do return (← get).read path
  makeDirectories path := do
    let (result, disk) := (← get).makeDirectories path
    set disk
    return result
  write path text := do
    let (result, disk) := (← get).write path text
    set disk
    return result
  isFile path := do return (← get).isFile path

end Emitter
