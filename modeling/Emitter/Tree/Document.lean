import Emitter.Json.Reader
import Emitter.Json.Writer
import Emitter.Tree.Load

/-!
# Trees as JSON documents

A tree is stored as `{"nodes": [NODE, ...], "root": N}`.  `Tree.toJson` writes
every field in a fixed order; `Tree.parse` is more liberal:

* the fields of an object may come in any order and other fields are ignored,
  but a known field must not be given twice;
* fields with a default may be left out;
* an object may also be written as the array of its field values in order, with
  a kind's word first; trailing fields that have a default may be left off.

The value that describes a kind has to be sound in full (`Json.isSound`), since
it is kept until its word is known.  What is ignored elsewhere is only skipped.
-/

namespace Emitter

/-! ## Fields -/

namespace Json

/-- The value of one field; fails when the field is given twice. -/
def slot (members : List (Option String × Json)) (name : String) : Option (Option Json) :=
  match members.filter fun m => decide (m.1 = some name) with
  | [] => some none
  | [m] => some (some m.2)
  | _ => none

/-- The values of the named fields of an object, or of an array in their order.
An absent field is `none`. -/
def slots (names : List String) : Json → Option (List (Option Json))
  | .object members =>
    if members.all (·.1.isSome) then names.mapM (slot members) else none
  | .array items =>
    if items.length ≤ names.length then
      some (items.map some ++ List.replicate (names.length - items.length) none)
    else none
  | _ => none

/-- A field that has to be there. -/
def required {α : Type} (read : Json → Option α) : Option Json → Option α
  | some value => read value
  | none => none

/-- A field that may be absent or null. -/
def optional {α : Type} (read : Json → Option α) : Option Json → Option (Option α)
  | none => some none
  | some .null => some none
  | some value => (read value).map some

/-- A field that may be absent. -/
def orElse {α : Type} (read : Json → Option α) (default : α) : Option Json → Option α
  | none => some default
  | some value => read value

/-- A 32-bit word, written as plain digits. -/
def word? : Json → Option UInt32
  | .natural n => if n < UInt32.size then some (UInt32.ofNat n) else none
  | _ => none

/-- The text of a string. -/
def text? : Json → Option String
  | .string text => text
  | _ => none

/-- The items of an array, each read the same way. -/
def list? {α : Type} (read : Json → Option α) : Json → Option (List α)
  | .array items => items.mapM read
  | _ => none

/-- The number of a node. -/
def id? (value : Json) : Option NodeId := (word? value).map NodeId.mk

/-- A list of node numbers. -/
def ids? : Json → Option (List NodeId) := list? id?

/-- A span, all three fields of which have to be there. -/
def span? (value : Json) : Option Span :=
  match slots ["file_id", "start", "end"] value with
  | some [file, start, stop] => do
    return { file := ← required word? file
             start := ← required word? start
             stop := ← required word? stop }
  | _ => none

/-- A name; a missing span is at the start of file 0. -/
def name? (value : Json) : Option Name :=
  match slots ["text", "span"] value with
  | some [text, span] => do
    return { text := ← required text? text, span := ← orElse span? {} span }
  | _ => none

/-! ## Reading kinds -/

/-- A class or an interface. -/
def typeDef? (form : TypeForm) (body : Json) : Option Kind := do
  let [name, parameters, definitions] ← slots ["name", "parameters", "definitions"] body | none
  return .typeDef form (← required name? name) (← orElse ids? [] parameters)
    (← required ids? definitions)

/-- A function or a method. -/
def callable? (form : CallableForm) (body : Json) : Option Kind := do
  let [name, returnType, params, block] ← slots ["name", "return_type", "params", "body"] body
    | none
  return .callable form (← required name? name) (← optional id? returnType)
    (← required ids? params) (← optional id? block)

/-- A macro, free or of a type. -/
def macroDef? (form : CallableForm) (body : Json) : Option Kind := do
  let [name, params, expansion] ← slots ["name", "params", "body"] body | none
  return .macroDef form (← required name? name) (← required ids? params)
    (← required id? expansion)

/-- A declaration or a field. -/
def binding? (form : BindingForm) (body : Json) : Option Kind := do
  let [type, name, value] ← slots ["type", "name", "value"] body | none
  return .binding form (← required id? type) (← required name? name) (← optional id? value)

/-- A literal token. -/
def literal? (form : LiteralForm) (body : Json) : Option Kind := do
  let [text] ← slots ["text"] body | none
  return .literal form (← required text? text)

/-- Reads the fields of a kind once its word is known. -/
def kindOf? (word : String) (body : Json) : Option Kind :=
  match word with
  | "Root" => do
    let [definitions] ← slots ["definitions"] body | none
    return .root (← required ids? definitions)
  | "Package" => do
    let [name, definitions] ← slots ["name", "definitions"] body | none
    return .package (← required name? name) (← required ids? definitions)
  | "Class" => typeDef? .classType body
  | "Interface" => typeDef? .interfaceType body
  | "Primitive" => do
    let [name] ← slots ["name"] body | none
    return .primitive (← required name? name)
  | "TypeParam" => do
    let [name] ← slots ["name"] body | none
    return .typeParam (← required name? name)
  | "Function" => callable? .free body
  | "Method" => callable? .member body
  | "Macro" => macroDef? .free body
  | "MethodMacro" => macroDef? .member body
  | "Declaration" => binding? .plain body
  | "Field" => binding? .field body
  | "Block" => do
    let [statements] ← slots ["statements"] body | none
    return .block (← required ids? statements)
  | "Local" => do
    let [declaration] ← slots ["declaration"] body | none
    return .localBinding (← required id? declaration)
  | "Return" => do
    let [expr] ← slots ["expr"] body | none
    return .ret (← optional id? expr)
  | "ExprStmt" => do
    let [expr] ← slots ["expr"] body | none
    return .exprStmt (← required id? expr)
  | "Assign" => do
    let [target, value] ← slots ["lhs", "rhs"] body | none
    return .assign (← required id? target) (← required id? value)
  | "If" => do
    let [predicate, consequence, alternative] ←
      slots ["predicate", "consequence", "alternative"] body | none
    return .cond (← required id? predicate) (← required id? consequence)
      (← optional id? alternative)
  | "Type" => do
    let [path, parameters] ← slots ["path", "parameters"] body | none
    return .typeRef (← required (list? name?) path) (← orElse ids? [] parameters)
  | "Var" => do
    let [name, definition] ← slots ["name", "definition"] body | none
    return .var (← required name? name) (← optional id? definition)
  | "Call" => do
    let [callee, args] ← slots ["expr", "args"] body | none
    return .call (← required id? callee) (← required ids? args)
  | "Attr" => do
    let [receiver, member] ← slots ["expr", "attr"] body | none
    return .attr (← required id? receiver) (← required name? member)
  | "Number" => literal? .number body
  | "String" => literal? .string body
  | "Fixed" => literal? .fixed body
  | "List" => do
    let [elements] ← slots ["elements"] body | none
    return .list (← required ids? elements)
  | "Native" => do
    let [parts] ← slots ["parts"] body | none
    return .native (← required ids? parts)
  | _ => none

/-- How many layers a kind may have: a document has at most 127, and three of
them are around the kind. -/
def kindLayers : Nat := 124

/-- Splits a kind into its word and the rest. -/
def tagged? : Json → Option (String × Json)
  | .object members => do
    let word ← slot members "kind"
    return (← required text? word, .object (members.filter fun m => decide (m.1 ≠ some "kind")))
  | .array (word :: rest) => do return (← text? word, .array rest)
  | _ => none

/-- What a node is. -/
def kind? (value : Json) : Option Kind := do
  if value.isSound kindLayers then
    let (word, body) ← tagged? value
    kindOf? word body
  else none

/-! ## Reading trees -/

/-- One node. -/
def node? (value : Json) : Option Node :=
  match slots ["kind", "parent", "resolved", "span"] value with
  | some [kind, parent, resolved, span] => do
    return { kind := ← required kind? kind
             parent := ← optional id? parent
             resolved := ← optional id? resolved
             span := ← orElse span? {} span }
  | _ => none

/-- The parts of a tree. -/
def parts? (value : Json) : Option (Arena × NodeId) :=
  match slots ["nodes", "root"] value with
  | some [nodes, root] => do
    return ((← required (list? node?) nodes).toArray, ← required id? root)
  | _ => none

end Json

/-- Why a document cannot be loaded. -/
inductive LoadError where
  /-- The text is not a document of this format. -/
  | malformed
  /-- The document describes an arena that is not a tree. -/
  | invalid (error : TreeError)
deriving DecidableEq, Repr

/-- The sentence that reports the error. -/
def LoadError.message : LoadError → String
  | malformed => "JSON error"
  | invalid error => error.message

/-- The tree that a JSON value describes. -/
def Tree.ofJson (value : Json) : Except LoadError Tree :=
  match value.parts? with
  | none => .error .malformed
  | some (nodes, root) => (Tree.ofParts nodes root).mapError .invalid

/-- The tree that a document describes. -/
def Tree.parse (document : String) : Except LoadError Tree :=
  match Json.parse? document with
  | none => .error .malformed
  | some value => Tree.ofJson value

/-! ## Writing -/

/-- The JSON value of a node number. -/
def NodeId.toJson (id : NodeId) : Json := .natural id.index

/-- The JSON value of a list of node numbers. -/
def NodeId.listToJson (ids : List NodeId) : Json := .array (ids.map NodeId.toJson)

/-- The JSON value of a node number that may be missing. -/
def NodeId.optionToJson (id : Option NodeId) : Json := Json.orNull (id.map NodeId.toJson)

/-- The JSON value of a span. -/
def Span.toJson (s : Span) : Json :=
  .record [("file_id", .natural s.file.toNat), ("start", .natural s.start.toNat),
    ("end", .natural s.stop.toNat)]

/-- The JSON value of a name. -/
def Name.toJson (name : Name) : Json :=
  .record [("text", .text name.text), ("span", name.span.toJson)]

/-- The fields of a kind in their fixed order. -/
def Kind.fields : Kind → List (String × Json)
  | .root definitions => [("definitions", NodeId.listToJson definitions)]
  | .package name definitions =>
    [("name", name.toJson), ("definitions", NodeId.listToJson definitions)]
  | .typeDef _ name parameters definitions =>
    [("name", name.toJson), ("parameters", NodeId.listToJson parameters),
      ("definitions", NodeId.listToJson definitions)]
  | .primitive name => [("name", name.toJson)]
  | .typeParam name => [("name", name.toJson)]
  | .callable _ name returnType params body =>
    [("name", name.toJson), ("return_type", NodeId.optionToJson returnType),
      ("params", NodeId.listToJson params), ("body", NodeId.optionToJson body)]
  | .macroDef _ name params body =>
    [("name", name.toJson), ("params", NodeId.listToJson params), ("body", body.toJson)]
  | .binding _ type name value =>
    [("type", type.toJson), ("name", name.toJson), ("value", NodeId.optionToJson value)]
  | .block statements => [("statements", NodeId.listToJson statements)]
  | .localBinding declaration => [("declaration", declaration.toJson)]
  | .ret expr => [("expr", NodeId.optionToJson expr)]
  | .exprStmt expr => [("expr", expr.toJson)]
  | .assign target value => [("lhs", target.toJson), ("rhs", value.toJson)]
  | .cond predicate consequence alternative =>
    [("predicate", predicate.toJson), ("consequence", consequence.toJson),
      ("alternative", NodeId.optionToJson alternative)]
  | .typeRef path parameters =>
    [("path", .array (path.map Name.toJson)), ("parameters", NodeId.listToJson parameters)]
  | .var name definition => [("name", name.toJson), ("definition", NodeId.optionToJson definition)]
  | .call callee args => [("expr", callee.toJson), ("args", NodeId.listToJson args)]
  | .attr receiver member => [("expr", receiver.toJson), ("attr", member.toJson)]
  | .literal _ text => [("text", .text text)]
  | .list elements => [("elements", NodeId.listToJson elements)]
  | .native parts => [("parts", NodeId.listToJson parts)]

/-- The JSON value of a kind: its word, then its fields. -/
def Kind.toJson (kind : Kind) : Json := .record (("kind", .text kind.label) :: kind.fields)

/-- The JSON value of a node. -/
def Node.toJson (node : Node) : Json :=
  .record [("kind", node.kind.toJson), ("parent", NodeId.optionToJson node.parent),
    ("resolved", NodeId.optionToJson node.resolved), ("span", node.span.toJson)]

/-- The JSON value of a tree. -/
def Tree.toJson (t : Tree) : Json :=
  .record [("nodes", .array (t.nodes.toList.map Node.toJson)), ("root", t.root.toJson)]

/-- The document of a tree. -/
def Tree.document (t : Tree) : String := t.toJson.pretty

end Emitter
