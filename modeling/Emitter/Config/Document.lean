import Emitter.Config.Basic
import Emitter.Stop
import Emitter.Toml.Reader

/-!
# Configurations as TOML documents

`Config.document` writes every setting on a line of its own, the substitutions
in a table at the end.  Two kinds of configuration have no document.  An indent
width that does not fit a signed 64-bit integer is an error, which is looked for
first.  At a text with a run of more than 255 equal quotes writing breaks off: the
quotes of a run are counted in a byte.

`Config.parse?` reads such a document.  Settings that are not given keep their
default, other keys are ignored, and a table of substitutions replaces the
default table.
-/

namespace Emitter

namespace Toml

/-- A line that gives a key its value. -/
def entryLine (key : String) (value : List Char) : List Char :=
  writtenKey key.toList ++ [' ', '=', ' '] ++ value ++ ['\n']

/-- A line that gives a key a text. -/
def textLine (key text : String) : List Char := entryLine key (written text.toList)

/-- The key under which a moment appears where a table is expected. -/
def momentKey : String := "$__toml_private_datetime"

/-- The text of a string. -/
def Value.text? : Value → Option String
  | .string text => some text
  | _ => none

/-- The value of an integer that is not negative. -/
def Value.natural? : Value → Option Nat
  | .integer value => if 0 ≤ value then some value.toNat else none
  | _ => none

/-- The value of a boolean. -/
def Value.boolean? : Value → Option Bool
  | .boolean value => some value
  | _ => none

/-- A table of texts.  A moment counts as a table with one entry. -/
def Value.texts? : Value → Option Substitutions
  | .table entries => do
    return Table.ofList (← entries.mapM fun (key, value) => value.text?.map fun text => (key, text))
  | .moment text => some (Table.ofList [(momentKey, text)])
  | _ => none

/-- Reads the value of a key; a missing key has the default. -/
def setting? {α : Type} (entries : List (String × Value)) (s : Setting) (read : Value → Option α)
    (default : α) : Option α :=
  match entries.lookup s.key with
  | some value => read value
  | none => some default

end Toml

/-- Why a configuration has no document. -/
inductive DocumentError where
  /-- The indent width does not fit a signed 64-bit integer. -/
  | wideIndent
deriving DecidableEq, Repr

/-- The sentence that reports the error. -/
def DocumentError.message : DocumentError → String
  | wideIndent => "out-of-range value for u64 type"

namespace Config

/-- The configuration that a document's top table gives. -/
def ofEntries? (entries : List (String × Toml.Value)) : Option Config := do
  let default : Config := {}
  return {
    target := ← Toml.setting? entries .target Toml.Value.text? default.target
    indentWidth := ← Toml.setting? entries .indentWidth Toml.Value.natural? default.indentWidth
    holderType := ← Toml.setting? entries .holderType Toml.Value.text? default.holderType
    selfName := ← Toml.setting? entries .selfName Toml.Value.text? default.selfName
    emitRuntime := ← Toml.setting? entries .emitRuntime Toml.Value.boolean? default.emitRuntime
    builtins := ← Toml.setting? entries .builtins Toml.Value.texts? default.builtins }

/-- The configuration that a document gives. -/
def parse? (document : String) : Option Config := do ofEntries? (← Toml.parse? document)

/-- The texts that a document writes as values. -/
def texts (c : Config) : List String :=
  [c.target, c.holderType, c.selfName] ++ c.builtins.entries.map (·.2)

/-- The lines of the document. -/
def lines (c : Config) : List Char :=
  Toml.textLine Setting.target.key c.target ++
    Toml.entryLine Setting.indentWidth.key c.indentWidth.repr.toList ++
    Toml.textLine Setting.holderType.key c.holderType ++
    Toml.textLine Setting.selfName.key c.selfName ++
    Toml.entryLine Setting.emitRuntime.key (if c.emitRuntime then "true" else "false").toList ++
    ['\n'] ++ ['['] ++ Setting.builtins.key.toList ++ [']', '\n'] ++
    c.builtins.entries.flatMap fun (key, text) => Toml.textLine key text

/-- The document of a configuration. -/
def document (c : Config) : Except (Stop DocumentError) String :=
  if Toml.integerLimit ≤ c.indentWidth then .error (.failure .wideIndent)
  else if c.texts.all fun text => Toml.isWritable text.toList then .ok (String.ofList c.lines)
  else .error .breakdown

end Config

end Emitter
