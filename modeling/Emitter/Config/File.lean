import Emitter.Config.Document
import Emitter.Storage.Basic

/-!
# Configuration files

Reading and writing the document of a configuration.  The document is made before
anything is written, so a configuration without one leaves the storage alone.
-/

namespace Emitter

/-- Why a configuration cannot be used. -/
inductive ConfigError where
  /-- The file cannot be read or written. -/
  | storage (path : Path) (cause : StorageError)
  /-- The text is not the document of a configuration. -/
  | malformed (path : Path)
  /-- The configuration has no document. -/
  | unwritable (cause : DocumentError)
  /-- A setting is wrong. -/
  | invalid (defect : ConfigDefect)
deriving DecidableEq, Repr

/-- The sentence that reports the error. -/
def ConfigError.message : ConfigError → String
  | storage path cause => "I/O error for \"" ++ path.text ++ "\": " ++ cause.message
  | malformed path => "Parse error for \"" ++ path.text ++ "\""
  | unwritable cause => "Serialization error: " ++ cause.message
  | invalid defect => defect.message

namespace Config

variable {m : Type → Type} [Monad m] [Storage m]

/-- Reads a configuration file. -/
def read (path : Path) : m (Except ConfigError Config) := do
  match ← Storage.read path with
  | .error e => return .error (.storage path e)
  | .ok document =>
    match parse? document with
    | some config => return .ok config
    | none => return .error (.malformed path)

/-- Writes a configuration file. -/
def write (c : Config) (path : Path) : m (Except (Stop ConfigError) Unit) := do
  match c.document with
  | .error stop => return .error (stop.map .unwritable)
  | .ok document =>
    match ← Storage.save path document with
    | .error (about, e) => return .error (.failure (.storage about e))
    | .ok () => return .ok ()

end Config

end Emitter
