import Emitter.Span

/-!
# Node kinds

The vocabulary of a resolved tree.  A tree is an arena of nodes that refer to
each other by number; this module says what a single node can be.

* `NodeId` is the number of a node, a 32-bit word;
* `Name` is an identifier with the place where it was written;
* `Kind` has one constructor for each shape of node;
* `Kind.children` lists the nodes that a node owns, in source order;
* `Kind.bindingSite` says how a variable bound to a node is written;
* `Kind.label` is the word that documents and diagnostics use for the kind.

Kinds that share a shape share a constructor and differ in a form: a class and
an interface are a `typeDef`, a function and a method a `callable`, and so on.
-/

namespace Emitter

/-! ## Node numbers and names -/

/-- The number of a node in its arena. -/
structure NodeId where
  word : UInt32
deriving DecidableEq, Repr, Inhabited

namespace NodeId

/-- The position in the arena. -/
def index (id : NodeId) : Nat := id.word.toNat

/-- The number of the node at a position.  Positions past the largest word wrap
around. -/
def ofIndex (i : Nat) : NodeId := ⟨UInt32.ofNat i⟩

/-- The form in which diagnostics name a node. -/
def text (id : NodeId) : String := "#" ++ id.index.repr

theorem index_lt (id : NodeId) : id.index < UInt32.size := id.word.toNat_lt

@[simp] theorem ofIndex_index (id : NodeId) : ofIndex id.index = id := by
  simp [ofIndex, index]

theorem index_ofIndex {i : Nat} (h : i < UInt32.size) : (ofIndex i).index = i := by
  simp only [ofIndex, index, UInt32.toNat_ofNat']
  exact Nat.mod_eq_of_lt h

theorem index_ofIndex_le (i : Nat) : (ofIndex i).index ≤ i := by
  simp only [ofIndex, index, UInt32.toNat_ofNat']
  exact Nat.mod_le i _

@[ext] theorem ext {a b : NodeId} (h : a.index = b.index) : a = b := by
  rw [← ofIndex_index a, ← ofIndex_index b, h]

end NodeId

/-- An identifier as written, with its place. -/
structure Name where
  text : String
  span : Span := {}
deriving DecidableEq, Repr, Inhabited

/-! ## Kinds -/

/-- The two ways to define a type with members. -/
inductive TypeForm where
  | classType
  | interfaceType
deriving DecidableEq, Repr

/-- Whether a callable or a macro belongs to a package or to a type. -/
inductive CallableForm where
  | free
  | member
deriving DecidableEq, Repr

/-- Whether a typed binding is a parameter or local, or a member of a type. -/
inductive BindingForm where
  | plain
  | field
deriving DecidableEq, Repr

/-- The three kinds of token that are emitted verbatim. -/
inductive LiteralForm where
  | number
  | string
  | fixed
deriving DecidableEq, Repr

/-- What a node is, with the numbers of the nodes it owns or refers to. -/
inductive Kind where
  | root (definitions : List NodeId)
  | package (name : Name) (definitions : List NodeId)
  | typeDef (form : TypeForm) (name : Name) (parameters definitions : List NodeId)
  | primitive (name : Name)
  | typeParam (name : Name)
  | callable (form : CallableForm) (name : Name) (returnType : Option NodeId)
      (params : List NodeId) (body : Option NodeId)
  | macroDef (form : CallableForm) (name : Name) (params : List NodeId) (body : NodeId)
  | binding (form : BindingForm) (type : NodeId) (name : Name) (value : Option NodeId)
  | block (statements : List NodeId)
  | localBinding (declaration : NodeId)
  | ret (expr : Option NodeId)
  | exprStmt (expr : NodeId)
  | assign (target value : NodeId)
  | cond (predicate consequence : NodeId) (alternative : Option NodeId)
  | typeRef (path : List Name) (parameters : List NodeId)
  | var (name : Name) (definition : Option NodeId)
  | call (callee : NodeId) (args : List NodeId)
  | attr (receiver : NodeId) (member : Name)
  | literal (form : LiteralForm) (text : String)
  | list (elements : List NodeId)
  | native (parts : List NodeId)
deriving DecidableEq, Repr

/-- How a variable bound to a node is written. -/
inductive BindingSite where
  /-- By its bare name, whatever the scope says. -/
  | definition
  /-- By its name as the scope rewrites it. -/
  | declaration
  /-- Through the type that hosts the free functions of its package. -/
  | function
deriving DecidableEq, Repr

namespace Kind

/-- The word for the kind in documents and diagnostics. -/
def label : Kind → String
  | root _ => "Root"
  | package .. => "Package"
  | typeDef .classType .. => "Class"
  | typeDef .interfaceType .. => "Interface"
  | primitive _ => "Primitive"
  | typeParam _ => "TypeParam"
  | callable .free .. => "Function"
  | callable .member .. => "Method"
  | macroDef .free .. => "Macro"
  | macroDef .member .. => "MethodMacro"
  | binding .plain .. => "Declaration"
  | binding .field .. => "Field"
  | block _ => "Block"
  | localBinding _ => "Local"
  | ret _ => "Return"
  | exprStmt _ => "ExprStmt"
  | assign .. => "Assign"
  | cond .. => "If"
  | typeRef .. => "Type"
  | var .. => "Var"
  | call .. => "Call"
  | attr .. => "Attr"
  | literal .number _ => "Number"
  | literal .string _ => "String"
  | literal .fixed _ => "Fixed"
  | list _ => "List"
  | native _ => "Native"

/-- The nodes that a node owns, in source order. -/
def children : Kind → List NodeId
  | root definitions => definitions
  | package _ definitions => definitions
  | typeDef _ _ parameters definitions => parameters ++ definitions
  | primitive _ => []
  | typeParam _ => []
  | callable _ _ returnType params body => returnType.toList ++ params ++ body.toList
  | macroDef _ _ params body => params ++ [body]
  | binding _ type _ value => type :: value.toList
  | block statements => statements
  | localBinding declaration => [declaration]
  | ret expr => expr.toList
  | exprStmt expr => [expr]
  | assign target value => [target, value]
  | cond predicate consequence alternative => predicate :: consequence :: alternative.toList
  | typeRef _ parameters => parameters
  | var .. => []
  | call callee args => callee :: args
  | attr receiver _ => [receiver]
  | literal .. => []
  | list elements => elements
  | native parts => parts

/-- The node that a variable is bound to. -/
def definition? : Kind → Option NodeId
  | var _ definition => definition
  | _ => none

/-- How a variable bound to a node of this kind is written; `none` where no
variable can be bound. -/
def bindingSite : Kind → Option BindingSite
  | binding .. => some .declaration
  | callable .free .. => some .function
  | package .. | typeDef .. | primitive _ | typeParam _ | callable .member .. | macroDef .. =>
    some .definition
  | root _ | block _ | localBinding _ | ret _ | exprStmt _ | assign .. | cond .. | typeRef ..
  | var .. | call .. | attr .. | literal .. | list _ | native _ => none

/-- The declared name, where there is one. -/
def name? : Kind → Option Name
  | package name _ | typeDef _ name _ _ | primitive name | typeParam name
  | callable _ name _ _ _ | macroDef _ name _ _ | binding _ _ name _ | var name _ => some name
  | root _ | block _ | localBinding _ | ret _ | exprStmt _ | assign .. | cond .. | typeRef ..
  | call .. | attr .. | literal .. | list _ | native _ => none

end Kind

end Emitter
