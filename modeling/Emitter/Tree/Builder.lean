import Emitter.Path
import Emitter.Tree.Load

/-!
# Building trees

A builder adds nodes one after the other.  Children come before their owner;
adding the owner links them to it.  What the resolver says is attached
afterwards, so it may refer to nodes that are added later.

Every node and every name takes the next one-byte span of the builder's file,
names before the node that carries them.

A `Call` is one request to a builder.  Most add one node of a certain kind; `add`
adds a node of any kind, and a type definition adds its type parameters first.
`Call.run` answers `none` when the request refers to a node that has not been
added, or when there are no spans left.  `Builder.finish` wraps the top-level
definitions in a root and loads the result.
-/

namespace Emitter

/-- A tree under construction. -/
structure Builder where
  nodes : Arena := #[]
  file : UInt32 := 0
  /-- The start of the next span. -/
  offset : UInt32 := 0

/-- Something done with a builder. -/
abbrev Build := StateT Builder Option

namespace Builder

/-! ## Spans, names and nodes -/

/-- The next span. -/
def takeSpan : Build Span := fun b =>
  (Span.advance b.offset 1).map fun next =>
    ({ file := b.file, start := b.offset, stop := next }, { b with offset := next })

/-- A name with the next span. -/
def takeName (text : String) : Build Name := do
  let span ← takeSpan
  return { text, span }

/-- Records the owner of nodes that have been added. -/
def adopt (owner : NodeId) : List NodeId → Arena → Option Arena
  | [], nodes => some nodes
  | child :: rest, nodes =>
    if child.index < nodes.size then
      adopt owner rest (nodes.modify child.index fun node => { node with parent := some owner })
    else none

/-- Adds a node and makes it the owner of its children. -/
def add (kind : Kind) : Build NodeId := do
  let id := NodeId.ofIndex (← get).nodes.size
  let nodes ← StateT.lift (adopt id kind.children (← get).nodes)
  let span ← takeSpan
  modify fun b => { b with nodes := nodes.push { kind, span } }
  return id

/-- Adds a type parameter. -/
def typeParam (text : String) : Build NodeId := do
  let name ← takeName text
  add (.typeParam name)

/-! ## What the resolver says -/

/-- A kind with the binding of a variable replaced; other kinds stay. -/
def rebind (definition : NodeId) : Kind → Kind
  | .var name _ => .var name (some definition)
  | other => other

/-- Changes a node that has been added. -/
def update (id : NodeId) (change : Node → Node) : Build Unit := fun b =>
  if id.index < b.nodes.size then some ((), { b with nodes := b.nodes.modify id.index change })
  else none

/-- Binds a variable; other nodes stay as they are. -/
def bindTo (var definition : NodeId) : Build Unit :=
  update var fun node => { node with kind := rebind definition node.kind }

/-- Attaches the semantic type of an expression. -/
def resolve (expr type : NodeId) : Build Unit :=
  update expr fun node => { node with resolved := some type }

/-! ## Requests -/

/-- A request to a builder. -/
inductive Call where
  | inFile (number : UInt32)
  | span
  | name (text : String)
  | add (kind : Kind)
  | package (name : String) (definitions : List NodeId)
  | typeDef (form : TypeForm) (name : String) (parameters : List String)
      (definitions : List NodeId)
  | primitive (name : String)
  | callable (form : CallableForm) (name : String) (returnType : Option NodeId)
      (params : List NodeId) (body : Option NodeId)
  | macroDef (form : CallableForm) (name : String) (params : List NodeId) (body : NodeId)
  | binding (form : BindingForm) (type : NodeId) (name : String) (value : Option NodeId)
  | typeRef (path : String) (parameters : List NodeId)
  | block (statements : List NodeId)
  | localBinding (declaration : NodeId)
  | ret (expr : Option NodeId)
  | exprStmt (expr : NodeId)
  | assign (target value : NodeId)
  | cond (predicate consequence : NodeId) (alternative : Option NodeId)
  | var (name : String)
  | varTo (name : String) (definition : NodeId)
  | call (callee : NodeId) (args : List NodeId)
  | attr (receiver : NodeId) (member : String)
  | literal (form : LiteralForm) (text : String)
  | list (elements : List NodeId)
  | native (parts : List NodeId)
  | bind (var definition : NodeId)
  | resolve (expr type : NodeId)
deriving DecidableEq, Repr

/-- The answer to a request. -/
inductive Reply where
  | node (id : NodeId)
  | span (span : Span)
  | name (name : Name)
  | done
deriving DecidableEq, Repr

/-- Adds a node that carries a name. -/
def addNamed (text : String) (kind : Name → Kind) : Build Reply := do
  let name ← takeName text
  return .node (← add (kind name))

/-- Adds a node without a name. -/
def addPlain (kind : Kind) : Build Reply := do return .node (← add kind)

/-- Does what a request asks for. -/
def Call.run : Call → Build Reply
  | .inFile number => do
    modify fun b => { b with file := number }
    return .done
  | .span => do return .span (← takeSpan)
  | .name text => do return .name (← takeName text)
  | .add kind => addPlain kind
  | .package text definitions => addNamed text fun name => .package name definitions
  | .typeDef form text parameters definitions => do
    let params ← parameters.mapM typeParam
    addNamed text fun name => .typeDef form name params definitions
  | .primitive text => addNamed text .primitive
  | .callable form text returnType params body =>
    addNamed text fun name => .callable form name returnType params body
  | .macroDef form text params body => addNamed text fun name => .macroDef form name params body
  | .binding form type text value => addNamed text fun name => .binding form type name value
  | .typeRef path parameters => do
    let names ← (splitText '.' path).mapM takeName
    addPlain (.typeRef names parameters)
  | .block statements => addPlain (.block statements)
  | .localBinding declaration => addPlain (.localBinding declaration)
  | .ret expr => addPlain (.ret expr)
  | .exprStmt expr => addPlain (.exprStmt expr)
  | .assign target value => addPlain (.assign target value)
  | .cond predicate consequence alternative => addPlain (.cond predicate consequence alternative)
  | .var text => addNamed text fun name => .var name none
  | .varTo text definition => do
    let name ← takeName text
    let id ← Builder.add (.var name none)
    bindTo id definition
    return .node id
  | .call callee args => addPlain (.call callee args)
  | .attr receiver text => addNamed text fun member => .attr receiver member
  | .literal form text => addPlain (.literal form text)
  | .list elements => addPlain (.list elements)
  | .native parts => addPlain (.native parts)
  | .bind id definition => do
    bindTo id definition
    return .done
  | .resolve expr type => do
    Builder.resolve expr type
    return .done

/-- Wraps the top-level definitions in a root and loads the tree. -/
def finish (b : Builder) (definitions : List NodeId) : Option (Except TreeError Tree) :=
  (add (.root definitions) b).map fun (root, b) => Tree.ofParts b.nodes root

end Builder

end Emitter
