import Emitter.Render.Stmt

/-!
# Files of a tree

Java has no free functions, so a tree and its files do not match one to one.

* every top-level class or interface has a file of its own, named after it;
* the free functions of a package share one file, the holder type of the
  package, which also gets the entry point when one of them is named `main`;
* primitives and macros have no file.

`Tree.project` puts the type files into a table in the order of the walk, then
the holder files in the order in which their packages were met.  A later file
with an equal path replaces the text of an earlier one.
-/

-- The names of match equations are used by the termination proofs only.
set_option linter.unusedVariables false

namespace Emitter

/-- Texts by path. -/
abbrev Files := Table Path String

/-- A definition that has a file, or a share of one. -/
inductive TopLevel where
  | type (id : NodeId)
  | function (id : NodeId)
deriving DecidableEq, Repr

/-- The number of a top-level type. -/
def TopLevel.type? : TopLevel → Option NodeId
  | type id => some id
  | function _ => none

/-- The number of a top-level function. -/
def TopLevel.function? : TopLevel → Option NodeId
  | function id => some id
  | type _ => none

/-! ## Paths and headers -/

/-- The file of a name in a package. -/
def Options.filePath (o : Options) (package : Option String) (stem : String) : Path :=
  let file := stem ++ "." ++ o.target.extension
  match package with
  | some package => (Path.ofDotted package).join file
  | none => ⟨file⟩

/-- A file body under the header of its package. -/
def withPackage (package : Option String) (body : String) : String :=
  match package with
  | some package => "package " ++ package ++ ";\n\n" ++ body
  | none => body

/-- The Java entry point, which calls the function `main`. -/
def Options.entryPoint (o : Options) : Rendered String := do
  return "public static void main(String[] args) " ++ (← o.braced "main();")

namespace Tree

/-! ## The walk -/

/-- The top-level definitions at and below a definition, through packages only. -/
def topLevelAt (t : Tree) (id : NodeId) : Rendered (List TopLevel) :=
  match hk : t.kind? id with
  | none => .error (.outside id)
  | some (.package _ definitions) => do
    let inner ← collect definitions fun definition _ => t.topLevelAt definition
    return inner.flatten
  | some (.typeDef ..) => .ok [.type id]
  | some (.callable .free ..) => .ok [.function id]
  | some (.primitive _) => .ok []
  | some (.macroDef ..) => .ok []
  | some other => .error (t.unhandled id other .topLevelDefinition)
termination_by t.room id
decreasing_by exact room_lt_of_kind? hk ‹_ ∈ _›

/-- All top-level definitions in source order. -/
def topLevel (t : Tree) : Rendered (List TopLevel) := do
  let inner ← collect t.rootDefinitions fun definition _ => t.topLevelAt definition
  return inner.flatten

/-! ## Files -/

/-- The file of a class or an interface. -/
def typeFile (t : Tree) (o : Options) (id : NodeId) : Rendered (Path × String) :=
  match t.kind? id with
  | none => .error (.outside id)
  | some kind =>
    match kind.name? with
    | none => .error (t.unhandled id kind .topLevelType)
    | some name => do
      let package := o.namer.package t id
      let text ← t.stmtText o id
      return (o.filePath package name.text, withPackage package text)

/-- Whether a definition is named `main`. -/
def isMain (t : Tree) (id : NodeId) : Bool :=
  ((t.kind? id).bind Kind.name?).any fun name => name.text == "main"

/-- The file that hosts free functions of one package. -/
def holderFile (t : Tree) (o : Options) (package : Option String) (functions : List NodeId) :
    Rendered (Path × String) := do
  let texts ← collect functions fun function _ => t.stmtText o function
  let entry ← (if functions.any t.isMain then do return [← o.entryPoint] else .ok [] :
    Rendered (List String))
  let body ← o.braced ("\n".intercalate (texts ++ entry))
  let text := "public class " ++ o.holderType ++ " " ++ body
  return (o.filePath package o.holderType, withPackage package text)

/-- The packages of functions, each once in the order of its first function,
with the functions in order. -/
def holders (t : Tree) (o : Options) (functions : List NodeId) :
    List (Option String × List NodeId) :=
  let packageOf := o.namer.package t
  (functions.map packageOf).eraseDups.map fun package =>
    (package, functions.filter fun function => packageOf function == package)

/-- All files of the tree. -/
def project (t : Tree) (o : Options) : Rendered Files := do
  let items ← t.topLevel
  let types ← collect (items.filterMap TopLevel.type?) fun id _ => t.typeFile o id
  let functions := items.filterMap TopLevel.function?
  let hosts ← collect (t.holders o functions) fun (package, members) _ =>
    t.holderFile o package members
  return Table.ofList (types ++ hosts)

end Tree

end Emitter
