import Emitter.Tree.Kind

/-!
# Classes of kinds

The groups of kinds that statements about rendering speak of: where a node has a
rendering, and what a reference to one stands for.
-/

namespace Emitter

namespace Kind

/-! ## Where a kind has a rendering -/

/-- The kinds that are rendered as expressions. -/
def isExpression : Kind → Bool
  | literal .. | list _ | native _ | typeRef .. | var .. | attr .. | call .. => true
  | _ => false

/-- The kinds that are rendered as declarations or statements. -/
def isStatement : Kind → Bool
  | typeDef .. | typeParam _ | callable .. | macroDef .. | binding .. | block _ | localBinding _
  | ret _ | exprStmt _ | assign .. | cond .. => true
  | _ => false

/-- The kinds that may stand at the top level or in a package. -/
def isTopLevel : Kind → Bool
  | package .. | typeDef .. | callable .free .. | primitive _ | macroDef .. => true
  | _ => false

/-! ## What a definition is -/

/-- Whether a kind is that of a class or an interface. -/
def isTypeDef : Kind → Bool
  | typeDef .. => true
  | _ => false

/-- Whether calls of a definition of this kind make an object, and members of it
belong to one. -/
def isObjectType : Kind → Bool
  | typeDef .. | primitive _ => true
  | _ => false

/-- Whether a kind is that of a free function. -/
def isFunction : Kind → Bool
  | callable .free .. => true
  | _ => false

/-- Whether a kind is that of a macro. -/
def isMacro : Kind → Bool
  | macroDef .. => true
  | _ => false

/-- Whether a kind is that of a definition that has no file: a primitive or a
macro. -/
def isSilent : Kind → Bool
  | primitive _ | macroDef .. => true
  | _ => false

/-- For a variable, what it is bound to, if it is bound. -/
def bound? : Kind → Option (Option NodeId)
  | var _ definition => some definition
  | _ => none

/-- The name of a callable or macro that belongs to a type. -/
def memberName? : Kind → Option Name
  | callable .member name .. | macroDef .member name .. => some name
  | _ => none

theorem isMacro_of_isObjectType {kind : Kind} (h : kind.isObjectType = true) :
    kind.isMacro = false := by
  cases kind with
  | macroDef => cases h
  | _ => rfl

theorem isMacro_of_isFunction {kind : Kind} (h : kind.isFunction = true) :
    kind.isMacro = false := by
  cases kind with
  | macroDef => cases h
  | _ => rfl

end Kind

end Emitter
