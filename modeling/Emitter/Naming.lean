import Emitter.Path
import Emitter.Table
import Emitter.Tree.Basic

/-!
# Names

How identifiers are written.  A `Namer` has two tables: the scope of a macro
expansion, which is asked first, and the fixed table of built-in names.  A name
in neither is written as it stands.

`Namer.package` is the dotted name of the packages around a node, outermost
first.
-/

namespace Emitter

/-- Replacements of identifiers. -/
abbrev Substitutions := Table String String

namespace Substitutions

/-- The built-in names of the language and what Java calls them. -/
def builtin : Substitutions :=
  Table.ofList [("self", "this"), ("int", "Integer"), ("List", "java.util.ArrayList"),
    ("Map", "java.util.HashMap")]

end Substitutions

/-- Writes names under a built-in table and the scope of an expansion. -/
structure Namer where
  builtins : Substitutions
  scope : Substitutions := Table.empty

namespace Namer

/-- Writes every name as it stands. -/
def plain : Namer := { builtins := Table.empty }

/-- The replacement of a text, if there is one; the scope wins. -/
def lookup (namer : Namer) (text : String) : Option String :=
  (namer.scope.find? text).or (namer.builtins.find? text)

/-- A text as it is written. -/
def write (namer : Namer) (text : String) : String := (namer.lookup text).getD text

/-- A name as it is written. -/
def name (namer : Namer) (name : Name) : String := namer.write name.text

/-- The written names of the packages around a node, innermost first. -/
def enclosing (namer : Namer) (t : Tree) (id : NodeId) : List String :=
  (t.ancestors id).filterMap fun node =>
    match t.kind? node with
    | some (.package name _) => some (namer.name name)
    | _ => none

/-- The dotted name of the packages around a node, itself included. -/
def package (namer : Namer) (t : Tree) (id : NodeId) : Option String :=
  match namer.enclosing t id with
  | [] => none
  | segments => some (".".intercalate segments.reverse)

end Namer

end Emitter
