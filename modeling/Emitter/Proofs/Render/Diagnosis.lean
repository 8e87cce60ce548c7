import Mathlib.Data.List.Permutation
import Emitter.Proofs.Render.Failure
import Emitter.Proofs.Tree.Loading

/-!
# What reports say

Rendering ends at the first defect, and the report points at a node.  `Tree.Raises`
says that one of the renderers reports a failure, and `Tree.HasDefect` what the tree
must look like for the report to be right: for each kind of failure, which node is
pointed at, and what is wrong with it or with the node that it refers to.

`Raises.of_failsOnly` reduces a statement about reports to nodes without a rendering
and to expressions, and there to the faults of single activations.  The main result
is that reports are right: the node is in the tree, the span is its own, and it has
the defect, however many expansions lie between the node and the start of the run.
-/

namespace Emitter

/-- The place that a report names. -/
def RenderError.span : RenderError → Span
  | unhandledNode _ _ _ span => span
  | unhandledType _ _ _ span => span
  | missingDefinition _ _ span => span
  | missingResolution _ _ span => span
  | macroArity _ _ _ _ span => span
  | missingReceiver _ _ span => span
  | recursiveMacro _ _ span => span

/-- What holds of the report when rendering ends with one. -/
def Halt.OnDefect (P : RenderError → Prop) : Halt → Prop
  | defect cause => P cause
  | outside _ | tooWide => True

namespace Tree

variable {t : Tree} {o : Options}

/-! ## Reports -/

/-- One of the renderers reports a failure: at an expression, under whatever names, at a
statement, or for the files of the tree. -/
inductive Raises (t : Tree) (o : Options) (cause : RenderError) : Prop where
  | expr (namer : Namer) (id : NodeId) (h : t.exprText o namer [] id = .error (.defect cause))
  | stmt (id : NodeId) (h : t.stmtText o id = .error (.defect cause))
  | project (h : t.project o = .error (.defect cause))

theorem stmtText_of_outside {id : NodeId} (hk : t.kind? id = none) :
    t.stmtText o id = .error (.outside id) := by
  rw [stmtText]
  split
  · rfl
  all_goals simp_all

/-- What holds at nodes without a rendering and of the failures of expressions holds of
every report. -/
theorem Raises.of_failsOnly {P : RenderError → Prop}
    (hnode : ∀ id kind position, t.kind? id = some kind → Position.accepts position kind = false →
      P (.unhandledNode id kind.label position (t.span id)))
    (hexpr : ∀ namer id, FailsOnly (Halt.OnDefect P) (t.exprText o namer [] id))
    {cause : RenderError} (h : t.Raises o cause) : P cause := by
  have hwide : widthLimit ≤ o.indentWidth → Halt.OnDefect P .tooWide := fun _ => trivial
  have hinside : ∀ id : NodeId, id.index < t.size → FailsOnly (Halt.OnDefect P) (t.expr o id) :=
    fun id _ => hexpr o.namer id
  cases h with
  | expr namer id h => exact hexpr namer id _ h
  | stmt id h =>
    cases hk : t.kind? id with
    | none =>
      rw [stmtText_of_outside hk] at h
      cases h
    | some kind => exact failsOnly_stmtText hnode hinside hwide id (index_lt_of_kind? hk) _ h
  | project h => exact failsOnly_project hnode hinside hwide _ h

/-! ## Failures of look-ups -/

theorem resolution_error {id : NodeId} {halt : Halt} (h : t.resolution id = .error halt) :
    halt = .outside id ∨ ∃ kind, t.kind? id = some kind ∧ t.resolved? id = none ∧
      halt = .defect (.missingResolution id kind.label (t.span id)) := by
  unfold resolution at h
  split at h
  · cases h
    exact .inl rfl
  · next node hn =>
    split at h
    · cases h
    · next hnone =>
      cases h
      exact .inr ⟨node.kind, by simp [kind?, hn], by simp [resolved?, hn, hnone], by
        simp [span, hn]⟩

theorem parameterName_error {id : NodeId} {halt : Halt} (h : t.parameterName id = .error halt) :
    halt = .outside id ∨ ∃ kind, t.kind? id = some kind ∧ kind.name? = none ∧
      halt = t.unhandled id kind .macroParameter := by
  unfold parameterName at h
  split at h
  · cases h
    exact .inl rfl
  · next kind hk =>
    split at h
    · cases h
    · next hname =>
      cases h
      exact .inr ⟨kind, hk, hname, rfl⟩

/-- A type fails at a node that has no rendering where it stands. -/
theorem typeText_error {namer : Namer} {id : NodeId} {halt : Halt} (hin : id.index < t.size)
    (h : t.typeText namer id = .error halt) :
    ∃ node kind position, t.kind? node = some kind ∧ Position.accepts position kind = false ∧
      halt = t.unhandled node kind position := by
  have hfails : FailsOnly (fun halt => ∃ node kind position, t.kind? node = some kind ∧
      Position.accepts position kind = false ∧ halt = t.unhandled node kind position)
      (t.typeText namer id) :=
    failsOnly_typeText (fun node kind position hk hother => ⟨node, kind, position, hk, hother, rfl⟩)
      namer id hin
  exact hfails halt h

theorem receiver?_eq_none {callee : NodeId} (h : t.receiver? callee = none) (receiver : NodeId)
    (member : Name) : t.kind? callee ≠ some (.attr receiver member) := by
  intro hk
  rw [receiver?_eq_some_iff.2 ⟨member, hk⟩] at h
  cases h

/-! ## Defects -/

/-- The nodes whose semantic type rendering asks for. -/
inductive NeedsType (t : Tree) (node : NodeId) : Prop where
  | callee {call : NodeId} {args : List NodeId} (hk : t.kind? call = some (.call node args))
  | receiver {attr : NodeId} {member : Name} (hk : t.kind? attr = some (.attr node member))
  | member {receiver type : NodeId} {member name : Name} {definitions : List NodeId}
      (hk : t.kind? node = some (.attr receiver member)) (ht : t.resolved? receiver = some type)
      (hd : t.kind? type = some (.package name definitions))

/-- The node that a construct at a node refers to. -/
inductive Refers (t : Tree) (node type : NodeId) : Construct → Prop where
  | boundVariable {name : Name} (hk : t.kind? node = some (.var name (some type))) :
      Refers t node type .boundVariable
  | attributeReceiver {receiver : NodeId} {member : Name}
      (hk : t.kind? node = some (.attr receiver member)) (ht : t.resolved? receiver = some type) :
      Refers t node type .attributeReceiver
  | callTarget {callee : NodeId} {args : List NodeId}
      (hk : t.kind? node = some (.call callee args)) (ht : t.resolved? callee = some type) :
      Refers t node type .callTarget

/-- The tree has the defect that a report describes. -/
def HasDefect (t : Tree) : RenderError → Prop
  | .unhandledNode node label position _ =>
    ∃ kind, t.kind? node = some kind ∧ kind.label = label ∧ position.accepts kind = false
  | .unhandledType node construct label _ =>
    ∃ type kind, t.Refers node type construct ∧ t.kind? type = some kind ∧ kind.label = label ∧
      construct.accepts kind = false
  | .missingDefinition node text _ =>
    ∃ name, t.kind? node = some (.var name none) ∧ name.text = text
  | .missingResolution node label _ =>
    ∃ kind, t.kind? node = some kind ∧ kind.label = label ∧ t.resolved? node = none ∧
      t.NeedsType node
  | .macroArity node text expected found _ =>
    ∃ callee args type form name params body,
      t.kind? node = some (.call callee args) ∧ t.resolved? callee = some type ∧
      t.kind? type = some (.macroDef form name params body) ∧ name.text = text ∧
      params.length = expected ∧ args.length = found ∧ found < expected
  | .missingReceiver node text _ =>
    ∃ callee args type kind name,
      t.kind? node = some (.call callee args) ∧ t.resolved? callee = some type ∧
      t.kind? type = some kind ∧ kind.memberName? = some name ∧ name.text = text ∧
      ∀ receiver member, t.kind? callee ≠ some (.attr receiver member)
  | .recursiveMacro node text _ =>
    ∃ callee args type form name params body,
      t.kind? node = some (.call callee args) ∧ t.resolved? callee = some type ∧
      t.kind? type = some (.macroDef form name params body) ∧ name.text = text

/-- A report is right about the tree. -/
structure Pinpoints (t : Tree) (cause : RenderError) : Prop where
  inside : t.contains cause.node = true
  span : cause.span = t.span cause.node
  defect : t.HasDefect cause

theorem Pinpoints.unhandledNode {id : NodeId} {kind : Kind} {position : Position}
    (hk : t.kind? id = some kind) (hother : position.accepts kind = false) :
    t.Pinpoints (.unhandledNode id kind.label position (t.span id)) :=
  ⟨decide_eq_true (index_lt_of_kind? hk), rfl, kind, hk, rfl, hother⟩

theorem Pinpoints.unhandledType {id type : NodeId} {kind target : Kind} {construct : Construct}
    (hk : t.kind? id = some kind) (href : t.Refers id type construct)
    (hd : t.kind? type = some target) (hother : construct.accepts target = false) :
    t.Pinpoints (.unhandledType id construct target.label (t.span id)) :=
  ⟨decide_eq_true (index_lt_of_kind? hk), rfl, type, target, href, hd, rfl, hother⟩

/-- A type that cannot be looked up is reported where it is missing. -/
theorem onDefect_of_resolution {id : NodeId} {halt : Halt} (hneeds : t.NeedsType id)
    (h : t.resolution id = .error halt) : halt.OnDefect t.Pinpoints := by
  rcases resolution_error h with rfl | ⟨kind, hk, hnone, rfl⟩
  · trivial
  · exact ⟨decide_eq_true (index_lt_of_kind? hk), rfl, kind, hk, rfl, hnone, hneeds⟩

/-- What an activation raises by itself is right. -/
theorem ExprFault.onDefect {frame : Frame} {halt : Halt} (h : t.ExprFault frame halt) :
    halt.OnDefect t.Pinpoints := by
  cases h with
  | outside | definitionOutside | receiverOutside | memberOutside | calleeOutside => trivial
  | notExpression hk hother => exact .unhandledNode hk hother
  | type hk h =>
    obtain ⟨node, kind, position, hnode, hother, rfl⟩ := typeText_error (index_lt_of_kind? hk) h
    exact .unhandledNode hnode hother
  | unbound hk => exact ⟨decide_eq_true (index_lt_of_kind? hk), rfl, _, hk, rfl⟩
  | definitionKind hk hd hother => exact .unhandledType hk (.boundVariable hk) hd hother
  | receiverType hk h => exact onDefect_of_resolution (.receiver hk) h
  | receiverKind hk ht hd hother =>
    exact .unhandledType hk (.attributeReceiver hk (resolution_eq_ok_iff.1 ht)) hd hother
  | memberType hk ht hd h =>
    exact onDefect_of_resolution (.member hk (resolution_eq_ok_iff.1 ht) hd) h
  | calleeType hk h => exact onDefect_of_resolution (.callee hk) h
  | calleeKind hk ht hd hother =>
    exact .unhandledType hk (.callTarget hk (resolution_eq_ok_iff.1 ht)) hd hother
  | noReceiver hk ht hd hmember hr =>
    exact ⟨decide_eq_true (index_lt_of_kind? hk), rfl, _, _, _, _, _, hk,
      resolution_eq_ok_iff.1 ht, hd, hmember, rfl, receiver?_eq_none hr⟩
  | recursive hk ht hd _ =>
    exact ⟨decide_eq_true (index_lt_of_kind? hk), rfl, _, _, _, _, _, _, _, hk,
      resolution_eq_ok_iff.1 ht, hd, rfl⟩
  | arity hk ht hd hlt =>
    exact ⟨decide_eq_true (index_lt_of_kind? hk), rfl, _, _, _, _, _, _, _, hk,
      resolution_eq_ok_iff.1 ht, hd, rfl, rfl, rfl, hlt⟩
  | parameter _ _ _ _ h =>
    rcases parameterName_error h with rfl | ⟨kind, hk, hname, rfl⟩
    · trivial
    · exact .unhandledNode hk (by simp [Position.accepts, hname])

/-- Reports are right: the node is in the tree, the span is its own, and it has the
defect that the report describes. -/
theorem pinpoints_of_raises {t : Tree} {o : Options} {cause : RenderError}
    (h : t.Raises o cause) : t.Pinpoints cause := by
  refine h.of_failsOnly (fun _ _ _ hk hother => .unhandledNode hk hother) fun namer id halt h => ?_
  obtain ⟨frame, _, hfault⟩ := exprText_error h
  exact hfault.onDefect

/-- A macro whose body calls another macro with one argument of two, and a function that
calls the first. -/
def shortCall : Tree where
  nodes := #[
    { kind := .root [⟨1⟩] },
    { kind := .package { text := "p" } [⟨2⟩, ⟨8⟩, ⟨14⟩], parent := some ⟨0⟩ },
    { kind := .macroDef .free { text := "pick" } [⟨3⟩, ⟨5⟩] ⟨7⟩, parent := some ⟨1⟩ },
    { kind := .binding .plain ⟨4⟩ { text := "a" } none, parent := some ⟨2⟩ },
    { kind := .typeRef [{ text := "int" }] [], parent := some ⟨3⟩ },
    { kind := .binding .plain ⟨6⟩ { text := "b" } none, parent := some ⟨2⟩ },
    { kind := .typeRef [{ text := "int" }] [], parent := some ⟨5⟩ },
    { kind := .var { text := "a" } (some ⟨3⟩), parent := some ⟨2⟩ },
    { kind := .macroDef .free { text := "first" } [⟨9⟩] ⟨11⟩, parent := some ⟨1⟩ },
    { kind := .binding .plain ⟨10⟩ { text := "x" } none, parent := some ⟨8⟩ },
    { kind := .typeRef [{ text := "int" }] [], parent := some ⟨9⟩ },
    { kind := .call ⟨12⟩ [⟨13⟩], parent := some ⟨8⟩,
      span := { file := 1, start := 40, stop := 47 } },
    { kind := .var { text := "pick" } (some ⟨2⟩), parent := some ⟨11⟩, resolved := some ⟨2⟩ },
    { kind := .var { text := "x" } (some ⟨9⟩), parent := some ⟨11⟩ },
    { kind := .callable .free { text := "main" } none [] (some ⟨15⟩), parent := some ⟨1⟩ },
    { kind := .block [⟨16⟩], parent := some ⟨14⟩ },
    { kind := .exprStmt ⟨17⟩, parent := some ⟨15⟩ },
    { kind := .call ⟨18⟩ [⟨19⟩], parent := some ⟨16⟩ },
    { kind := .var { text := "first" } (some ⟨8⟩), parent := some ⟨17⟩, resolved := some ⟨8⟩ },
    { kind := .literal .number "1", parent := some ⟨17⟩ }]
  root := ⟨0⟩
  wellFormed := wellFormed_of_ofParts (by decide)

/-- The files of the tree fail inside an expansion, and the report is right about the
call in the body. -/
theorem pinpoints_shortCall :
    shortCall.Raises {} (.macroArity ⟨11⟩ "pick" 2 1 { file := 1, start := 40, stop := 47 }) ∧
      shortCall.Pinpoints
        (.macroArity ⟨11⟩ "pick" 2 1 { file := 1, start := 40, stop := 47 }) := by
  have hfails : shortCall.project {} = .error (.defect
      (.macroArity ⟨11⟩ "pick" 2 1 { file := 1, start := 40, stop := 47 })) := by cbv
  have hraises := Raises.project hfails
  exact ⟨hraises, pinpoints_of_raises hraises⟩

end Tree

end Emitter
