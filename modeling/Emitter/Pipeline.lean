import Emitter.Config.Basic
import Emitter.Generate
import Emitter.Storage.Basic
import Emitter.Tree.Document

/-!
# The way from a tree to its files

A `Pipeline` is a configuration and the steps that are switched on.

* `Pipeline.render` checks the configuration, finds the target and renders every
  file.  It touches no storage.
* `Pipeline.compile` renders, and then writes below an output directory.  All
  rendering is done before the first write, so a tree that cannot be rendered
  leaves the storage alone.
* `Pipeline.compileFile` loads the tree first.

A failure of any step is a `BuildError`.  It has a sentence of its own and the
sentences of its causes, unless rendering broke off.
-/

namespace Emitter

/-! ## Failures -/

/-- Why a run has no result. -/
inductive BuildError where
  /-- The file of the tree cannot be read. -/
  | unreadable (cause : StorageError)
  /-- The document is not that of a tree. -/
  | tree (cause : LoadError)
  | render (cause : Halt)
  /-- There is no target of this name. -/
  | target (name : String)
  | config (cause : ConfigDefect)
  /-- A file cannot be written. -/
  | storage (cause : StorageError)
deriving DecidableEq, Repr

namespace BuildError

/-- The sentences that report the failure: its own, and then those of what led to it, the
nearest cause first.  There are none where rendering broke off. -/
def sentences : BuildError → List String
  | unreadable cause =>
    ["Invalid tree: I/O error: " ++ cause.message, "I/O error: " ++ cause.message, cause.message]
  | tree cause => ["Invalid tree: " ++ cause.message, cause.message]
  | render (.defect cause) => ["Code generation failed: " ++ cause.message, cause.message]
  | render (.outside _) => []
  | render .tooWide => []
  | target name => ["Invalid target: " ++ name]
  | config cause => ["Configuration error: " ++ cause.message, cause.message]
  | storage cause => ["I/O error: " ++ cause.message, cause.message]

end BuildError

/-! ## Stages -/

/-- The steps of a run. -/
inductive Stage where
  | load
  | render
  | write
deriving DecidableEq, Repr

namespace Stage

/-- Where a step stands in a run. -/
def order : Stage → Nat
  | load => 0
  | render => 1
  | write => 2

/-- Whether a step can be left out.  The others make what later ones need. -/
def isOptional : Stage → Bool
  | write => true
  | load => false
  | render => false

end Stage

/-- A configuration and the steps that are switched on. -/
structure Pipeline where
  config : Config := {}
  stages : List Stage := [.load, .render, .write]
deriving DecidableEq, Repr

/-- What a run produced. -/
structure Compilation where
  /-- The target by the name it was asked for. -/
  target : String
  files : Files
  /-- The number of nodes of the tree. -/
  nodeCount : Nat
deriving DecidableEq, Repr

/-- The options for a target by name, from a configuration without defects. -/
def Config.optionsFor (c : Config) (target : String) : Except BuildError Options := do
  c.check.mapError BuildError.config
  match Target.named? target with
  | some found => return c.options found
  | none => throw (.target target)

/-- The files at their places below a directory. -/
def Files.under (files : Files) (out : Path) : List (Path × String) :=
  files.entries.map fun (path, text) => (out.join path.text, text)

variable {m : Type → Type} [Monad m] [Storage m]

/-- Reads the file of a tree. -/
def Tree.read (path : Path) : m (Except BuildError Tree) := do
  match ← Storage.read path with
  | .error e => return .error (.unreadable e)
  | .ok document => return (Tree.parse document).mapError BuildError.tree

namespace Pipeline

/-- Whether a step is switched on. -/
def isEnabled (p : Pipeline) (stage : Stage) : Bool := p.stages.contains stage

/-- Switches a step on or off.  Steps that later ones need are not switched off. -/
def setEnabled (p : Pipeline) (stage : Stage) (enabled : Bool) : Pipeline :=
  if !enabled && !stage.isOptional then p
  else if enabled then
    if p.isEnabled stage then p
    else { p with stages := (p.stages ++ [stage]).mergeSort fun a b => a.order ≤ b.order }
  else { p with stages := p.stages.filter (· != stage) }

/-- All files of a tree, at paths without output directory. -/
def render (p : Pipeline) (t : Tree) (target : String) : Except BuildError Files := do
  let options ← p.config.optionsFor target
  (t.generate options).mapError BuildError.render

/-- Renders a tree and, unless switched off, writes its files below a directory. -/
def compile (p : Pipeline) (t : Tree) (target : String) (out : Path) :
    m (Except BuildError Compilation) := do
  match p.render t target with
  | .error e => return .error e
  | .ok files =>
    if p.isEnabled .write then
      match ← Storage.writeAll (files.under out) with
      | .error e => return .error (.storage e)
      | .ok () =>
        return .ok { target, files := Table.ofList (files.under out), nodeCount := t.size }
    else return .ok { target, files, nodeCount := t.size }

/-- Loads a tree and compiles it. -/
def compileFile (p : Pipeline) (input : Path) (target : String) (out : Path) :
    m (Except BuildError Compilation) := do
  match ← Tree.read input with
  | .error e => return .error e
  | .ok t => p.compile t target out

end Pipeline

end Emitter
