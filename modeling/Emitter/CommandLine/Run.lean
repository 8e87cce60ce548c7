import Emitter.CommandLine.Arguments
import Emitter.CommandLine.Report

/-!
# Running a command

A command either prints a text, ends in a report or breaks off.  It prints nothing
unless it succeeds.

The configuration of a command is that of the file, or the default one, with
the overrides laid over it.  It is checked before anything else is done.
-/

namespace Emitter.CommandLine

/-- The configuration with settings overridden. -/
def Overrides.apply (o : Overrides) (c : Config) : Config :=
  { c with
    target := o.target.getD c.target
    indentWidth := o.indent.getD c.indentWidth
    emitRuntime := o.emitRuntime || c.emitRuntime }

/-- A configuration without defects. -/
def accepted (c : Config) : Except Report Config :=
  match c.check with
  | .ok () => .ok c
  | .error defect => .error (.ofConfig (.invalid defect))

/-- A file as it is printed. -/
def listing (path : Path) (text : String) : String :=
  "// " ++ path.text ++ "\n" ++ text ++ "\n\n"

/-- All files as they are printed, in path order. -/
def listings (files : Files) : String :=
  String.join (files.entries.map fun (path, text) => listing path text)

/-- The list of targets as it is printed. -/
def targetList : String :=
  String.join ("Available targets:\n" :: Target.available.map fun name => "  " ++ name ++ "\n")

variable {m : Type → Type} [Monad m] [Storage m]

/-- The configuration that a command works with. -/
def configuration (file : Option Path) (o : Overrides) : m (Except Report Config) := do
  match file with
  | none => return accepted (o.apply {})
  | some path =>
    match ← Config.read path with
    | .ok config => return accepted (o.apply config)
    | .error e =>
      return .error ((Report.ofConfig e).within ("failed to read configuration " ++ path.text))

/-- Writes the files of a tree. -/
def compile (config : Config) (input output : Path) : m (Except (Stop Report) String) := do
  if !(← Storage.isFile input) then
    return .error (.failure { message := input.text ++ " is not a file" })
  match ← Pipeline.compileFile { config } input config.target output with
  | .ok _ => return .ok ""
  | .error e =>
    return .error ((Report.ofBuild e).map (Report.within ("failed to compile " ++ input.text)))

/-- Prints the files of a tree. -/
def emit (config : Config) (input : Path) : m (Except (Stop Report) String) := do
  match ← Tree.read input with
  | .error e =>
    return .error ((Report.ofBuild e).map (Report.within ("failed to load " ++ input.text)))
  | .ok t =>
    match Pipeline.render { config } t config.target with
    | .ok files => return .ok (listings files)
    | .error e => return .error (Report.ofBuild e)

/-- Writes the default configuration. -/
def initConfig (output : Path) : m (Except (Stop Report) String) := do
  match ← Config.write {} output with
  | .ok () => return .ok ""
  | .error stop => return .error (stop.map Report.ofConfig)

/-- Checks a configuration file. -/
def validateConfig (path : Path) : m (Except (Stop Report) String) := do
  match ← Config.read path with
  | .error e => return .error (.failure (.ofConfig e))
  | .ok config =>
    match accepted config with
    | .ok _ => return .ok ""
    | .error report => return .error (.failure report)

/-- Runs a command. -/
def run (invocation : Invocation) : m (Except (Stop Report) String) := do
  match invocation.command with
  | .compile input output overrides =>
    match ← configuration invocation.config overrides with
    | .ok config => compile config input output
    | .error report => return .error (.failure report)
  | .emit input overrides =>
    match ← configuration invocation.config overrides with
    | .ok config => emit config input
    | .error report => return .error (.failure report)
  | .targets => return .ok targetList
  | .initConfig output => initConfig output
  | .validateConfig path => validateConfig path

/-- How a run ends. -/
structure Ending where
  /-- Zero for success, one for a failure, two for wrong arguments, 101 for a run that
  broke off. -/
  code : UInt32
  /-- What is printed. -/
  output : String := ""
  /-- Whether the arguments are explained to the user, in words that are left open. -/
  explains : Bool := false
  /-- What is reported. -/
  report : Option String := none
deriving DecidableEq, Repr

/-- The name of the program and its version. -/
def versionLine : String := "q-lang 0.1.0\n"

/-- Does what a list of arguments asks for. -/
def runArgs (args : List String) : m Ending := do
  match Request.ofArgs args with
  | .version => return { code := 0, output := versionLine }
  | .help => return { code := 0, explains := true }
  | .misuse => return { code := 2, explains := true }
  | .run invocation =>
    match ← run invocation with
    | .ok output => return { code := 0, output }
    | .error (.failure report) => return { code := 1, report := some report.text }
    | .error .breakdown => return { code := 101 }

end Emitter.CommandLine
