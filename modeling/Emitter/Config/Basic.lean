import Emitter.Render.Options
import Emitter.Text.Alphabetic

/-!
# Configuration

The settings of a run as a user gives them, with their defaults.

* `Config.check` accepts a configuration or names the first setting that is
  wrong, in a fixed order;
* `Config.merge` lays one configuration over another: settings that differ from
  their default win, and substitutions are added;
* `Config.options` are the rendering options for a target.
-/

namespace Emitter

/-- The settings of a run. -/
structure Config where
  target : String := "java"
  indentWidth : Nat := 4
  /-- The class that hosts the free functions of each package. -/
  holderType : String := "Functions"
  /-- The receiver name inside method macros. -/
  selfName : String := "self"
  /-- Whether the support class is emitted. -/
  emitRuntime : Bool := false
  builtins : Substitutions := Substitutions.builtin
deriving DecidableEq, Repr

/-- A setting by itself. -/
inductive Setting where
  | target
  | indentWidth
  | holderType
  | selfName
  | emitRuntime
  | builtins
deriving DecidableEq, Repr

/-- The key of a setting in files and reports. -/
def Setting.key : Setting → String
  | target => "target"
  | indentWidth => "indent_width"
  | holderType => "holder_type"
  | selfName => "self_name"
  | emitRuntime => "emit_runtime"
  | builtins => "builtins"

/-- What is wrong with a configuration. -/
inductive ConfigDefect where
  | emptyTarget
  | indentWidth
  | holderType (name : String)
  | selfName (name : String)
  /-- A substitution from or to nothing. -/
  | emptySide (name : String)
deriving DecidableEq, Repr

namespace ConfigDefect

/-- The setting with the defect. -/
def setting : ConfigDefect → Setting
  | emptyTarget => .target
  | indentWidth => .indentWidth
  | holderType _ => .holderType
  | selfName _ => .selfName
  | emptySide _ => .builtins

/-- What the report says about the setting. -/
def detail : ConfigDefect → String
  | emptyTarget => "Target must not be empty"
  | indentWidth => "Indent width must be 1-16"
  | holderType name => "`" ++ name ++ "` is not a valid class name"
  | selfName name => "`" ++ name ++ "` is not a valid identifier"
  | emptySide name => "Substitution for `" ++ name ++ "` has an empty side"

/-- The sentence that reports the defect. -/
def message (defect : ConfigDefect) : String :=
  "Invalid configuration for " ++ defect.setting.key ++ ": " ++ defect.detail

end ConfigDefect

/-- A letter, an underscore or a dollar sign. -/
def isIdentifierStart (c : Char) : Bool := isAlphabetic c || c == '_' || c == '$'

/-- What may follow in an identifier. -/
def isIdentifierPart (c : Char) : Bool := isAlphanumeric c || c == '_' || c == '$'

/-- Whether a text is an identifier. -/
def isIdentifier (text : String) : Bool :=
  match text.toList with
  | [] => false
  | first :: rest => isIdentifierStart first && rest.all isIdentifierPart

namespace Config

/-- The first substitution with an empty side. -/
def emptySide? (c : Config) : Option String :=
  (c.builtins.entries.find? fun entry => entry.1.isEmpty || entry.2.isEmpty).map (·.1)

/-- The first defect of a configuration. -/
def defect? (c : Config) : Option ConfigDefect :=
  if c.target.isEmpty then some .emptyTarget
  else if ¬(1 ≤ c.indentWidth ∧ c.indentWidth ≤ 16) then some .indentWidth
  else if !isIdentifier c.holderType then some (.holderType c.holderType)
  else if !isIdentifier c.selfName then some (.selfName c.selfName)
  else c.emptySide?.map .emptySide

/-- Accepts a configuration without defects. -/
def check (c : Config) : Except ConfigDefect Unit :=
  match c.defect? with
  | some defect => .error defect
  | none => .ok ()

/-- The second of two settings unless it is the default. -/
def overlay {α : Type} [DecidableEq α] (default mine other : α) : α :=
  if other = default then mine else other

/-- The configuration with another one laid over it. -/
def merge (c other : Config) : Config :=
  let default : Config := {}
  { target := overlay default.target c.target other.target
    indentWidth := overlay default.indentWidth c.indentWidth other.indentWidth
    holderType := overlay default.holderType c.holderType other.holderType
    selfName := overlay default.selfName c.selfName other.selfName
    emitRuntime := c.emitRuntime || other.emitRuntime
    builtins := c.builtins.extend other.builtins }

/-- The rendering options for a target. -/
def options (c : Config) (target : Target) : Options :=
  { target
    indentWidth := c.indentWidth
    holderType := c.holderType
    selfName := c.selfName
    builtins := c.builtins
    emitRuntime := c.emitRuntime }

end Config

end Emitter
