import Emitter.Project
import Emitter.Support

/-!
# Targets and generated files

Targets by name, and the complete set of files that a run generates: the files
of the tree and, if asked for, the support class.
-/

namespace Emitter

namespace Target

/-- The target with a name.  Java also answers to `jvm`. -/
def named? (name : String) : Option Target :=
  if name = "java" ∨ name = "jvm" then some java else none

/-- The names under which targets are listed. -/
def available : List String := ["java"]

/-- What trees may contain when they are rendered to Java. -/
def features : List String :=
  ["classes", "interfaces", "generics", "packages", "macros", "entry-point"]

/-- Whether a feature is supported. -/
def supports (feature : String) : Bool := features.contains feature

end Target

/-- The number of bytes of all texts. -/
def Files.byteCount (files : Files) : Nat :=
  files.values.foldr (fun text count => text.utf8ByteSize + count) 0

/-- All files of a run. -/
def Tree.generate (t : Tree) (o : Options) : Rendered Files := do
  let files ← t.project o
  if o.emitRuntime then return files.insert ⟨Support.fileName o⟩ (← Support.source o)
  else return files

end Emitter
