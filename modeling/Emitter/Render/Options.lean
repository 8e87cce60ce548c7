import Emitter.Naming

/-!
# Rendering options

What stays the same for a whole run: the target, the width of a level, the type
that hosts free functions, the receiver name of method macros and the built-in
names.
-/

namespace Emitter

/-- A language that trees can be rendered to. -/
structure Target where
  name : String
  extension : String
  supportsGenerics : Bool
  /-- Whether callables may live outside a type. -/
  supportsFreeFunctions : Bool
deriving DecidableEq, Repr

/-- Java has generics and no free functions. -/
def Target.java : Target :=
  { name := "java", extension := "java", supportsGenerics := true, supportsFreeFunctions := false }

/-- The settings of a run. -/
structure Options where
  target : Target := .java
  indentWidth : Nat := 4
  /-- The type that hosts the free functions of a package. -/
  holderType : String := "Functions"
  /-- The name that a method macro's receiver is bound to. -/
  selfName : String := "self"
  builtins : Substitutions := Substitutions.builtin
  /-- Whether the support class is emitted as well. -/
  emitRuntime : Bool := false

/-- The namer without an expansion scope. -/
def Options.namer (o : Options) : Namer := { builtins := o.builtins }

/-- The namer inside a macro expansion. -/
def Options.scoped (o : Options) (scope : Substitutions) : Namer :=
  { builtins := o.builtins, scope }

end Emitter
