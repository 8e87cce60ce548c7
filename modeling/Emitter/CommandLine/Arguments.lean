import Emitter.Decimal
import Emitter.Path

/-!
# Arguments

What a list of arguments asks for.  Reading goes in two steps:

* `scan` splits arguments into items: a flag with its value, an operand, or
  something that is neither;
* `Request.ofArgs` reads the items from left to right.  The first item that
  settles the request decides, so `--version` wins over a mistake after it.

Flags come in the usual forms: `--long`, `--long=value`, `--long value`, `-s`,
`-svalue`, `-s=value`, `-s value`, and switches in a cluster such as `-vc file`.
A separate value must not look like a flag, and no flag may be given twice.
After `--` every argument is an operand.
-/

namespace Emitter.CommandLine

/-! ## Flags -/

/-- A named argument. -/
inductive Flag where
  | help
  | version
  | verbose
  | config
  | output
  | target
  | indent
  | emitRuntime
deriving DecidableEq, Repr

namespace Flag

/-- The name after two dashes. -/
def long : Flag → String
  | help => "help"
  | version => "version"
  | verbose => "verbose"
  | config => "config"
  | output => "output"
  | target => "target"
  | indent => "indent"
  | emitRuntime => "emit-runtime"

/-- The letter after one dash. -/
def short? : Flag → Option Char
  | help => some 'h'
  | version => some 'V'
  | verbose => some 'v'
  | config => some 'c'
  | output => some 'o'
  | target => some 't'
  | indent => none
  | emitRuntime => none

/-- Whether the flag has a value. -/
def takesValue : Flag → Bool
  | config => true
  | output => true
  | target => true
  | indent => true
  | _ => false

end Flag

/-! ## Items -/

/-- A piece of a command line. -/
inductive Item where
  /-- A flag; a switch has an empty value. -/
  | given (flag : Flag) (value : String)
  /-- An operand, and the arguments after it. -/
  | operand (text : String) (rest : List String)
  /-- An operand after `--`. -/
  | trailing (text : String)
  /-- An unknown flag, or one with a value too few or too many. -/
  | mistaken
deriving DecidableEq, Repr

/-- Whether an argument can be the separate value of a flag. -/
def isValue (arg : String) : Bool := arg == "-" || arg.toList.head? != some '-'

/-- What the letters after one dash stand for.  A flag at the end that still
needs a value is left over. -/
def cluster (flags : List Flag) : List Char → List Item × Option Flag
  | [] => ([], none)
  | letter :: rest =>
    match flags.find? fun flag => flag.short? == some letter with
    | none => ([.mistaken], none)
    | some flag =>
      if flag.takesValue then
        match rest with
        | [] => ([], some flag)
        | '=' :: value => ([.given flag (String.ofList value)], none)
        | value => ([.given flag (String.ofList value)], none)
      else
        let (items, open?) := cluster flags rest
        (.given flag "" :: items, open?)

/-- What the text after two dashes stands for. -/
def long (flags : List Flag) (text : List Char) : List Item × Option Flag :=
  let name := String.ofList (text.takeWhile (· != '='))
  match flags.find? fun flag => flag.long == name, text.dropWhile (· != '=') with
  | none, _ => ([.mistaken], none)
  | some flag, [] => if flag.takesValue then ([], some flag) else ([.given flag ""], none)
  | some flag, _ :: value =>
    if flag.takesValue then ([.given flag (String.ofList value)], none) else ([.mistaken], none)

/-- Splits arguments into items. -/
def scan (flags : List Flag) : List String → List Item
  | [] => []
  | arg :: rest =>
    if arg = "--" then rest.map .trailing
    else if isValue arg then .operand arg rest :: scan flags rest
    else
      let (items, open?) := match arg.toList with
        | '-' :: '-' :: text => long flags text
        | _ :: text => cluster flags text
        | [] => ([], none)
      match open? with
      | none => items ++ scan flags rest
      | some flag =>
        match rest with
        | [] => items ++ [.mistaken]
        | value :: others =>
          if isValue value then items ++ .given flag value :: scan flags others
          else items ++ [.mistaken]

/-! ## Commands -/

/-- Settings that override the configuration. -/
structure Overrides where
  target : Option String := none
  indent : Option Nat := none
  emitRuntime : Bool := false
deriving DecidableEq, Repr

/-- What to do. -/
inductive Command where
  /-- Writes the files of a tree below a directory. -/
  | compile (input output : Path) (overrides : Overrides)
  /-- Prints the files of a tree. -/
  | emit (input : Path) (overrides : Overrides)
  /-- Lists the targets. -/
  | targets
  /-- Writes the default configuration. -/
  | initConfig (output : Path)
  /-- Checks a configuration file. -/
  | validateConfig (path : Path)
deriving DecidableEq, Repr

/-- A command and where its configuration is. -/
structure Invocation where
  verbose : Bool := false
  config : Option Path := none
  command : Command
deriving DecidableEq, Repr

/-- What arguments ask for. -/
inductive Request where
  | run (invocation : Invocation)
  | version
  | help
  /-- The arguments do not form a command. -/
  | misuse
deriving DecidableEq, Repr

/-! ## Values -/

/-- A path, which must not be empty. -/
def path? (text : String) : Option Path := if text.isEmpty then none else some ⟨text⟩

/-- The number that decimal digits stand for. -/
def digits? (text : List Char) : Option Nat :=
  if text.isEmpty || !text.all Char.isDigit then none
  else some (Decimal.ofDigits text)

/-- A number of at most 64 bits, after an optional plus sign. -/
def number? (text : String) : Option Nat :=
  let value := match text.toList with
    | '+' :: rest => digits? rest
    | other => digits? other
  value.filter fun n => n < UInt64.size

/-! ## Reading a command -/

/-- What has been given to a command. -/
structure Given where
  input : Option Path := none
  output : Option Path := none
  overrides : Overrides := {}
deriving DecidableEq, Repr

/-- Puts a value where none has been given yet. -/
def once {α : Type} (current value : Option α) : Option (Option α) :=
  match current, value with
  | none, some value => some (some value)
  | _, _ => none

namespace Given

/-- Adds a flag. -/
def flag (g : Given) (value : String) : Flag → Option Given
  | .output => (once g.output (path? value)).map fun output => { g with output }
  | .target => (once g.overrides.target (some value)).map fun target =>
      { g with overrides := { g.overrides with target } }
  | .indent => (once g.overrides.indent (number? value)).map fun indent =>
      { g with overrides := { g.overrides with indent } }
  | .emitRuntime =>
      if g.overrides.emitRuntime then none
      else some { g with overrides := { g.overrides with emitRuntime := true } }
  | _ => none

/-- Adds an operand. -/
def operand (g : Given) (text : String) : Option Given :=
  (once g.input (path? text)).map fun input => { g with input }

end Given

/-- A command before its arguments are known. -/
structure Form where
  flags : List Flag
  takesInput : Bool
  build : Given → Option Command

/-- The command with a name. -/
def Form.named? : String → Option Form
  | "compile" => some
    { flags := [.output, .target, .indent, .emitRuntime, .help]
      takesInput := true
      build := fun g => g.input.map fun input =>
        .compile input (g.output.getD ⟨"dist"⟩) g.overrides }
  | "emit" => some
    { flags := [.target, .indent, .emitRuntime, .help]
      takesInput := true
      build := fun g => g.input.map fun input => .emit input g.overrides }
  | "targets" => some
    { flags := [.help], takesInput := false, build := fun _ => some .targets }
  | "init-config" => some
    { flags := [.output, .help]
      takesInput := false
      build := fun g => some (.initConfig (g.output.getD ⟨"q-lang.toml"⟩)) }
  | "validate-config" => some
    { flags := [.help], takesInput := true, build := fun g => g.input.map .validateConfig }
  | _ => none

/-- How reading the arguments of a command ends. -/
inductive Outcome where
  | command (command : Command)
  | help
  | misuse
deriving DecidableEq, Repr

/-- Reads the items of a command. -/
def Form.read (form : Form) : Given → List Item → Outcome
  | g, [] =>
    match form.build g with
    | some command => .command command
    | none => .misuse
  | g, item :: rest =>
    let next := match item with
      | .given flag value => g.flag value flag
      | .operand text _ => if form.takesInput then g.operand text else none
      | .trailing text => if form.takesInput then g.operand text else none
      | .mistaken => none
    match item, next with
    | .given .help _, _ => .help
    | _, some g => form.read g rest
    | _, none => .misuse

namespace Request

/-- The flags before a command. -/
def globals : List Flag := [.verbose, .config, .version, .help]

/-- The name of the command that explains the others. -/
def helpName : String := "help"

/-- Reads what to explain: everything, or one command. -/
def explain : List String → Request
  | [] => .help
  | [name] => if name = helpName ∨ (Form.named? name).isSome then .help else .misuse
  | _ => .misuse

/-- Reads the command after the global flags. -/
def command (verbose : Bool) (config : Option Path) (name : String) (args : List String) :
    Request :=
  match Form.named? name with
  | none => if name = helpName then explain args else .misuse
  | some form =>
    match form.read {} (scan form.flags args) with
    | .command command => .run { verbose, config, command }
    | .help => .help
    | .misuse => .misuse

/-- Reads the global flags up to the command. -/
def ofItems (verbose : Bool) (config : Option Path) : List Item → Request
  | .given .version _ :: _ => .version
  | .given .help _ :: _ => .help
  | .given .verbose _ :: rest => if verbose then .misuse else ofItems true config rest
  | .given .config value :: rest =>
    match once config (path? value) with
    | some config => ofItems verbose config rest
    | none => .misuse
  | .operand name args :: _ => command verbose config name args
  | _ => .misuse

/-- What a list of arguments asks for. -/
def ofArgs (args : List String) : Request := ofItems false none (scan globals args)

end Request

end Emitter.CommandLine
