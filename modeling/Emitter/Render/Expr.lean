import Emitter.Render.Error
import Emitter.Render.Options

/-!
# Expressions

`Tree.typeText` and `Tree.exprText` render a node to one Java type or
expression.

Most expressions follow their syntax.  A variable depends on what it is bound
to, an attribute on the type of its receiver, and a call on the type of its
callee.  A macro call leaves no call behind: it is replaced by the body of the
macro, rendered in a scope where the macro's parameters stand for the rendered
arguments.  The scope rewrites only variables bound to declarations, and type
names; other references keep the names that the built-in table gives them.

A macro must not be expanded inside its own expansion.  The list of macros under
expansion is what makes rendering end: a body has fewer macros left to expand,
and everything else goes down to a child.

The recursion is written as a step.  A `Frame` is one activation of the
renderer, `Calls` says which activations it may start, and `exprStep` puts their
texts together.
-/

-- The names of match equations are used by the termination proofs only.
set_option linter.unusedVariables false

namespace Emitter

namespace Tree

/-! ## Types -/

/-- A type: `a.b.C`, or `a.b.C<X,Y>` with arguments. -/
def typeText (t : Tree) (namer : Namer) (id : NodeId) : Rendered String :=
  match hk : t.kind? id with
  | none => .error (.outside id)
  | some (.typeRef path parameters) => do
    let head := ".".intercalate (path.map namer.name)
    let args ← collect parameters fun parameter _ => t.typeText namer parameter
    return if args.isEmpty then head else head ++ "<" ++ ",".intercalate args ++ ">"
  | some other => .error (t.unhandled id other .type)
termination_by t.room id
decreasing_by exact room_lt_of_kind? hk ‹_ ∈ _›

/-! ## Variables -/

/-- The bare name of a variable, whatever it is bound to. -/
def varName (t : Tree) (namer : Namer) (id : NodeId) : Rendered String :=
  match t.kind? id with
  | none => .error (.outside id)
  | some (.var name _) => .ok (namer.name name)
  | some other => .error (t.unhandled id other .variableName)

/-- A member of the type that hosts free functions. -/
def holderAccess (o : Options) (qualifier : Option String) (member : String) : String :=
  match qualifier with
  | some qualifier => qualifier ++ "." ++ o.holderType ++ "." ++ member
  | none => o.holderType ++ "." ++ member

/-- A variable, by what it is bound to. -/
def varText (t : Tree) (o : Options) (namer : Namer) (id : NodeId) (name : Name)
    (definition : Option NodeId) : Rendered String :=
  match definition with
  | none => .error (.defect (.missingDefinition id name.text (t.span id)))
  | some definition =>
    match t.kind? definition with
    | none => .error (.outside definition)
    | some kind =>
      match kind.bindingSite with
      | some .declaration => .ok (namer.name name)
      | some .definition => .ok (o.namer.name name)
      | some .function =>
        .ok (holderAccess o (o.namer.package t definition) (o.namer.name name))
      | none => .error (.defect (.unhandledType id .boundVariable kind.label (t.span id)))

/-! ## Receivers -/

/-- The receiver of a callee that is an attribute. -/
def receiver? (t : Tree) (callee : NodeId) : Option NodeId :=
  match t.kind? callee with
  | some (.attr receiver _) => some receiver
  | _ => none

theorem room_lt_of_receiver? {t : Tree} {callee receiver : NodeId}
    (h : t.receiver? callee = some receiver) : t.room receiver < t.room callee := by
  unfold receiver? at h
  split at h
  · next hk => cases h; exact room_lt_of_kind? hk List.mem_cons_self
  · cases h

/-! ## Macro scopes -/

/-- The name that a macro parameter binds. -/
def parameterName (t : Tree) (id : NodeId) : Rendered String :=
  match t.kind? id with
  | none => .error (.outside id)
  | some kind =>
    match kind.name? with
    | some name => .ok name.text
    | none => .error (t.unhandled id kind .macroParameter)

/-- The scope of an expansion: the receiver under the self name, then each
parameter with its argument.  A later binding of a name replaces an earlier
one, and surplus arguments are dropped. -/
def expansionScope (t : Tree) (o : Options) (receiver : Option String) (params : List NodeId)
    (args : List String) : Rendered Substitutions := do
  let names ← collect params fun param _ => t.parameterName param
  let start := (receiver.map fun text => (o.selfName, text)).toList
  return Table.ofList (start ++ names.zip args)

/-- The text of a call's receiver, which has to be there. -/
def receiverText (t : Tree) (id callee : NodeId) (name : Name)
    (render : (receiver : NodeId) → t.receiver? callee = some receiver → Rendered String) :
    Rendered String :=
  match hr : t.receiver? callee with
  | some receiver => render receiver hr
  | none => .error (.defect (.missingReceiver id name.text (t.span id)))

/-! ## Activations -/

/-- One activation of the expression renderer: the node it stands at, the names
in force there and the macros under expansion, innermost first. -/
structure Frame where
  namer : Namer
  expanding : List NodeId
  id : NodeId

/-- The activation at another node of the same scope. -/
def Frame.visit (frame : Frame) (id : NodeId) : Frame := { frame with id }

/-- The activations that an activation may start: at a node that its own node
owns, at the receiver of its callee, and at the body of the macro that its
callee resolves to, unless that macro is under expansion. -/
inductive Calls (t : Tree) (o : Options) (frame : Frame) : Frame → Prop where
  | child {kind : Kind} {child : NodeId} (hk : t.kind? frame.id = some kind)
      (hc : child ∈ kind.children) : Calls t o frame (frame.visit child)
  | receiver {callee receiver : NodeId} {args : List NodeId}
      (hk : t.kind? frame.id = some (.call callee args))
      (hr : t.receiver? callee = some receiver) : Calls t o frame (frame.visit receiver)
  | body {callee type body : NodeId} {args params : List NodeId} {form : CallableForm}
      {name : Name} {scope : Substitutions} (hk : t.kind? frame.id = some (.call callee args))
      (ht : t.resolution callee = .ok type)
      (hd : t.kind? type = some (.macroDef form name params body))
      (hnew : type ∉ frame.expanding) :
      Calls t o frame { namer := o.scoped scope, expanding := type :: frame.expanding, id := body }

theorem Calls.arg {t : Tree} {o : Options} {frame : Frame} {callee arg : NodeId}
    {args : List NodeId} (hk : t.kind? frame.id = some (.call callee args)) (ha : arg ∈ args) :
    t.Calls o frame (frame.visit arg) :=
  .child hk (List.mem_cons_of_mem callee ha)

/-- Every activation that is started has fewer macros left to expand, or as many
and less room below. -/
theorem Calls.measure_lt {t : Tree} {o : Options} {frame inner : Frame}
    (h : t.Calls o frame inner) :
    Prod.Lex (· < ·) (· < ·) (t.idle inner.expanding, t.room inner.id)
      (t.idle frame.expanding, t.room frame.id) := by
  cases h with
  | child hk hc => exact .right _ (room_lt_of_kind? hk hc)
  | receiver hk hr =>
    exact .right _ (Nat.lt_trans (room_lt_of_receiver? hr) (room_lt_of_kind? hk List.mem_cons_self))
  | body hk ht hd hnew => exact .left _ _ (idle_cons_lt (index_lt_of_kind? hd) hnew)

/-! ## Expressions -/

/-- One step of rendering an expression: what an activation makes of the texts
of the activations that it starts. -/
def exprStep (t : Tree) (o : Options) (frame : Frame)
    (render : (inner : Frame) → t.Calls o frame inner → Rendered String) : Rendered String :=
  match hk : t.kind? frame.id with
  | none => .error (.outside frame.id)
  | some (.literal _ text) => .ok text
  | some (.list elements) => do
    let texts ← collect elements fun element he => render (frame.visit element) (.child hk he)
    return "new java.util.ArrayList(java.util.Arrays.asList(new Object[]\x7b" ++
      ", ".intercalate texts ++ "\x7d))"
  | some (.native parts) => do
    let texts ← collect parts fun part hp => render (frame.visit part) (.child hk hp)
    return String.join texts
  | some (.typeRef ..) => t.typeText frame.namer frame.id
  | some (.var name definition) => t.varText o frame.namer frame.id name definition
  | some (.attr receiver member) => do
    let type ← t.resolution receiver
    match t.kind? type with
    | none => .error (.outside type)
    | some (.typeDef ..) | some (.primitive _) =>
      let text ← render (frame.visit receiver) (.child hk List.mem_cons_self)
      return "(" ++ text ++ ")." ++ member.text
    | some (.package ..) =>
      let text ← render (frame.visit receiver) (.child hk List.mem_cons_self)
      let memberType ← t.resolution frame.id
      match t.kind? memberType with
      | none => .error (.outside memberType)
      | some (.callable .free ..) => return holderAccess o (some text) member.text
      | some _ => return text ++ "." ++ member.text
    | some other =>
      .error (.defect (.unhandledType frame.id .attributeReceiver other.label (t.span frame.id)))
  | some (.call callee args) =>
    match ht : t.resolution callee with
    | .error halt => .error halt
    | .ok type =>
      match hd : t.kind? type with
      | none => .error (.outside type)
      | some (.typeDef ..) | some (.primitive _) => do
        let text ← render (frame.visit callee) (.child hk List.mem_cons_self)
        let texts ← collect args fun arg ha => render (frame.visit arg) (.arg hk ha)
        return "new " ++ text ++ "(" ++ ", ".intercalate texts ++ ")"
      | some (.callable .free ..) => do
        let text ← render (frame.visit callee) (.child hk List.mem_cons_self)
        let texts ← collect args fun arg ha => render (frame.visit arg) (.arg hk ha)
        return text ++ "(" ++ ", ".intercalate texts ++ ")"
      | some (.callable .member name ..) => do
        let text ← t.receiverText frame.id callee name fun receiver hr =>
          render (frame.visit receiver) (.receiver hk hr)
        let texts ← collect args fun arg ha => render (frame.visit arg) (.arg hk ha)
        return "(" ++ text ++ ")." ++ name.text ++ "(" ++ ", ".intercalate texts ++ ")"
      | some (.macroDef form name params body) => do
        let receiver ← (match form with
          | .free => .ok none
          | .member => (t.receiverText frame.id callee name fun receiver hr =>
              render (frame.visit receiver) (.receiver hk hr)).map some :
          Rendered (Option String))
        if hnew : type ∈ frame.expanding then
          .error (.defect (.recursiveMacro frame.id name.text (t.span frame.id)))
        else
          let texts ← collect args fun arg ha => render (frame.visit arg) (.arg hk ha)
          if texts.length < params.length then
            .error (.defect
              (.macroArity frame.id name.text params.length texts.length (t.span frame.id)))
          else
            let scope ← t.expansionScope o receiver params texts
            render { namer := o.scoped scope, expanding := type :: frame.expanding, id := body }
              (.body hk ht hd hnew)
      | some other =>
        .error (.defect (.unhandledType frame.id .callTarget other.label (t.span frame.id)))
  | some other => .error (t.unhandled frame.id other .expression)

/-- An expression under a namer, with the macros that are under expansion. -/
def exprText (t : Tree) (o : Options) (namer : Namer) (expanding : List NodeId) (id : NodeId) :
    Rendered String :=
  t.exprStep o { namer, expanding, id } fun inner _ =>
    t.exprText o inner.namer inner.expanding inner.id
termination_by (t.idle expanding, t.room id)
decreasing_by exact Calls.measure_lt ‹_›

/-- An expression outside any expansion. -/
def expr (t : Tree) (o : Options) (id : NodeId) : Rendered String := t.exprText o o.namer [] id

end Tree

end Emitter
