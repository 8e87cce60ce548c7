import Emitter.Path

/-!
# Storage

What a run needs of a file system: reading a text, making directories, writing a
text and asking whether a path is a file.  Everything that touches files is written
over the class `Storage`, so it runs on the real file system and, in
`Emitter.Storage.Disk`, on a value.

Failures are values.  An operation that fails may have made directories, but it
has changed no file.  `Storage.save` makes the directory of a file before it writes
the file, and says of a failure which of the two paths it is about.
-/

namespace Emitter

/-- Why a file cannot be read or written. -/
inductive StorageError where
  /-- Nothing is there. -/
  | missing
  /-- A file stands where a directory is needed. -/
  | notDirectory
  /-- A file stands where a directory is to be made. -/
  | occupied
  /-- The path is not that of a file. -/
  | isDirectory
  /-- A name or the whole path is too long. -/
  | tooLong
  /-- A name has a character that no name may have. -/
  | malformedName
  /-- The content is not text. -/
  | notText
  /-- Any other refusal, in words. -/
  | refused (reason : String)
deriving DecidableEq, Repr

/-- The sentence that reports the failure. -/
def StorageError.message : StorageError → String
  | missing => "No such file or directory (os error 2)"
  | notDirectory => "Not a directory (os error 20)"
  | occupied => "File exists (os error 17)"
  | isDirectory => "Is a directory (os error 21)"
  | tooLong => "File name too long (os error 36)"
  | malformedName => "file name contained an unexpected NUL byte"
  | notText => "stream did not contain valid UTF-8"
  | refused reason => reason

/-- A place where files are kept. -/
class Storage (m : Type → Type) where
  /-- The text of a file. -/
  read : Path → m (Except StorageError String)
  /-- Makes a directory and those on the way to it, where they are missing. -/
  makeDirectories : Path → m (Except StorageError Unit)
  /-- Writes the text of a file in a directory that is there. -/
  write : Path → String → m (Except StorageError Unit)
  /-- Whether a path is that of a file. -/
  isFile : Path → m Bool

namespace Storage

variable {m : Type → Type} [Monad m] [Storage m]

/-- Makes the directory that a file is to be in. -/
def makeParent (path : Path) : m (Except (Path × StorageError) Unit) := do
  match path.parent? with
  | some parent => return (← makeDirectories parent).mapError fun e => (parent, e)
  | none => return .ok ()

/-- Writes the text of a file after its directory was made. -/
def save (path : Path) (text : String) : m (Except (Path × StorageError) Unit) := do
  match ← makeParent path with
  | .error e => return .error e
  | .ok () => return (← write path text).mapError fun e => (path, e)

/-- Saves files from left to right and stops at the first failure. -/
def writeAll : List (Path × String) → m (Except StorageError Unit)
  | [] => return .ok ()
  | (path, text) :: rest => do
    match ← save path text with
    | .error (_, e) => return .error e
    | .ok () => writeAll rest

end Storage

end Emitter
