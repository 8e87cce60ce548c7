import Emitter.Tree.Basic

/-!
# Rendering failures

A `RenderError` names a node with a defect, where it was written and what is
wrong with it.  Rendering stops at the first one.

A defect of the tree is one way for rendering to end without a text (`Halt`).
The others are no fault of any node and are not reported: a renderer was started at
a number that is not in the tree, or text has to be set deeper by more blanks than
there can be.
-/

namespace Emitter

/-- What a node was expected to be. -/
inductive Position where
  | expression
  | statement
  | type
  | variableName
  | macroParameter
  | assignmentTarget
  | topLevelDefinition
  | topLevelType
deriving DecidableEq, Repr

/-- The words for a position in a report. -/
def Position.phrase : Position → String
  | expression => "an expression"
  | statement => "a declaration or statement"
  | type => "a type"
  | variableName => "a variable"
  | macroParameter => "a macro parameter"
  | assignmentTarget => "an assignment target"
  | topLevelDefinition => "a top-level definition"
  | topLevelType => "a top-level type"

/-- What depends on the kind of a referenced node. -/
inductive Construct where
  | boundVariable
  | attributeReceiver
  | callTarget
deriving DecidableEq, Repr

/-- The words for a construct in a report. -/
def Construct.phrase : Construct → String
  | boundVariable => "variable"
  | attributeReceiver => "attribute receiver"
  | callTarget => "call target"

/-- Why a node cannot be rendered. -/
inductive RenderError where
  /-- The node has no rendering in this position. -/
  | unhandledNode (node : NodeId) (kind : String) (position : Position) (span : Span)
  /-- The node refers to one that its construct does not accept. -/
  | unhandledType (node : NodeId) (construct : Construct) (found : String) (span : Span)
  /-- A variable is bound to nothing. -/
  | missingDefinition (node : NodeId) (name : String) (span : Span)
  /-- An expression has no semantic type. -/
  | missingResolution (node : NodeId) (kind : String) (span : Span)
  /-- A macro call has too few arguments. -/
  | macroArity (node : NodeId) (name : String) (expected found : Nat) (span : Span)
  /-- A method is called without a receiver. -/
  | missingReceiver (node : NodeId) (name : String) (span : Span)
  /-- A macro is called inside its own expansion. -/
  | recursiveMacro (node : NodeId) (name : String) (span : Span)
deriving DecidableEq, Repr

namespace RenderError

/-- The node that the failure points at. -/
def node : RenderError → NodeId
  | unhandledNode node .. => node
  | unhandledType node .. => node
  | missingDefinition node .. => node
  | missingResolution node .. => node
  | macroArity node .. => node
  | missingReceiver node .. => node
  | recursiveMacro node .. => node

/-- The sentence that reports the failure. -/
def message : RenderError → String
  | unhandledNode node kind position span =>
    kind ++ " node " ++ node.text ++ " at " ++ span.text ++ " cannot be rendered as " ++
      position.phrase
  | unhandledType node construct found span =>
    construct.phrase ++ " at " ++ span.text ++ " (" ++ node.text ++ ") resolves to " ++ found ++
      ", which has no rendering"
  | missingDefinition node name span =>
    "Var `" ++ name ++ "` " ++ node.text ++ " at " ++ span.text ++ " has no definition"
  | missingResolution node kind span =>
    kind ++ " node " ++ node.text ++ " at " ++ span.text ++ " has no resolved type"
  | macroArity node name expected found span =>
    "Macro `" ++ name ++ "` expects " ++ expected.repr ++ " arguments but call " ++ node.text ++
      " at " ++ span.text ++ " passes " ++ found.repr
  | missingReceiver node name span =>
    "Call " ++ node.text ++ " at " ++ span.text ++ " to `" ++ name ++ "` has no receiver"
  | recursiveMacro node name span =>
    "Macro `" ++ name ++ "` is expanded again inside its own expansion at call " ++ node.text ++
      " at " ++ span.text

end RenderError

/-- Why rendering ends without a text. -/
inductive Halt where
  /-- A node has a defect. -/
  | defect (cause : RenderError)
  /-- The number is not in the tree. -/
  | outside (node : NodeId)
  /-- Text would be set deeper by too many blanks. -/
  | tooWide
deriving DecidableEq, Repr

/-- The outcome of rendering something. -/
abbrev Rendered := Except Halt

namespace Tree

/-- The end at a node that has no rendering in a position. -/
def unhandled (t : Tree) (id : NodeId) (kind : Kind) (position : Position) : Halt :=
  .defect (.unhandledNode id kind.label position (t.span id))

/-- The semantic type of a node, which has to be there. -/
def resolution (t : Tree) (id : NodeId) : Rendered NodeId :=
  match t.node? id with
  | none => .error (.outside id)
  | some node =>
    match node.resolved with
    | some type => .ok type
    | none => .error (.defect (.missingResolution id node.kind.label node.span))

end Tree

/-- Renders the members of a list from left to right and stops at the first
failure.  The renderer may use that what it gets is a member. -/
def collect {α ε β : Type} : (xs : List α) → ((x : α) → x ∈ xs → Except ε β) → Except ε (List β)
  | [], _ => .ok []
  | x :: rest, render => do
    let first ← render x List.mem_cons_self
    let others ← collect rest fun y hy => render y (List.mem_cons_of_mem x hy)
    return first :: others

end Emitter
