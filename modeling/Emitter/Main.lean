import Emitter.CommandLine.Run

/-!
# The program

Runs the command line on the real file system.
-/

namespace Emitter

/-- The failure that an error of the system stands for. -/
def StorageError.ofSystem : IO.Error → StorageError
  | .noFileOrDirectory .. => .missing
  | .alreadyExists .. => .occupied
  | .inappropriateType _ code _ => if code = 21 then .isDirectory else .notDirectory
  | other => .refused (toString other)

/-- Runs an action and keeps its failure as a value. -/
def attempt {α : Type} (action : IO α) : IO (Except StorageError α) := do
  try
    return .ok (← action)
  catch e =>
    return .error (.ofSystem e)

/-- The real file system. -/
instance : Storage IO where
  read path := attempt (IO.FS.readFile path.text)
  makeDirectories path := attempt do
    if !path.text.isEmpty then IO.FS.createDirAll path.text
  write path text := attempt (IO.FS.writeFile path.text text)
  isFile path := do
    match ← attempt do return (← (← IO.FS.realPath path.text).metadata).type with
    | .ok .file => return true
    | _ => return false

end Emitter

/-- The entry point.  The words that explain the arguments are left out. -/
def main (args : List String) : IO UInt32 := do
  let ending ← Emitter.CommandLine.runArgs args
  IO.print ending.output
  if let some report := ending.report then IO.eprintln ("Error: " ++ report)
  return ending.code
