import Mathlib.Logic.Relation
import Emitter.Proofs.Outcome
import Emitter.Proofs.Tree.Kind
import Emitter.Render.Stmt

/-!
# Where rendering fails

Every failure of a renderer is raised somewhere.  `ExprFault t frame halt` lists
the ways in which an activation of the expression renderer fails by itself, with
what it has found by then; `exprText_error` says that a failure of a run is a
fault of one of its activations.
-/

namespace Emitter

/-! ## What a position accepts -/

/-- Whether a node of a kind has a rendering in a position. -/
def Position.accepts (position : Position) (kind : Kind) : Bool :=
  match position with
  | expression => kind.isExpression
  | statement => kind.isStatement
  | type => match kind with
    | .typeRef .. => true
    | _ => false
  | variableName => match kind with
    | .var .. => true
    | _ => false
  | macroParameter | topLevelType => kind.name?.isSome
  | assignmentTarget => match kind with
    | .var .. | .attr .. => true
    | _ => false
  | topLevelDefinition => kind.isTopLevel

/-- Whether a construct accepts a reference to a node of a kind. -/
def Construct.accepts (construct : Construct) (kind : Kind) : Bool :=
  match construct with
  | boundVariable => kind.bindingSite.isSome
  | attributeReceiver => match kind with
    | .typeDef .. | .primitive _ | .package .. => true
    | _ => false
  | callTarget => match kind with
    | .typeDef .. | .primitive _ | .callable .. | .macroDef .. => true
    | _ => false

namespace Tree

variable {t : Tree} {o : Options}

/-! ## Expressions -/

/-- What an activation of the expression renderer raises by itself. -/
inductive ExprFault (t : Tree) (frame : Frame) : Halt → Prop where
  | outside (hk : t.kind? frame.id = none) : ExprFault t frame (.outside frame.id)
  | notExpression {kind : Kind} (hk : t.kind? frame.id = some kind)
      (hother : Position.expression.accepts kind = false) :
      ExprFault t frame (t.unhandled frame.id kind .expression)
  | type {path : List Name} {parameters : List NodeId} {halt : Halt}
      (hk : t.kind? frame.id = some (.typeRef path parameters))
      (h : t.typeText frame.namer frame.id = .error halt) : ExprFault t frame halt
  | unbound {name : Name} (hk : t.kind? frame.id = some (.var name none)) :
      ExprFault t frame (.defect (.missingDefinition frame.id name.text (t.span frame.id)))
  | definitionOutside {name : Name} {definition : NodeId}
      (hk : t.kind? frame.id = some (.var name (some definition)))
      (hd : t.kind? definition = none) : ExprFault t frame (.outside definition)
  | definitionKind {name : Name} {definition : NodeId} {kind : Kind}
      (hk : t.kind? frame.id = some (.var name (some definition)))
      (hd : t.kind? definition = some kind)
      (hother : Construct.boundVariable.accepts kind = false) :
      ExprFault t frame
        (.defect (.unhandledType frame.id .boundVariable kind.label (t.span frame.id)))
  | receiverType {receiver : NodeId} {member : Name} {halt : Halt}
      (hk : t.kind? frame.id = some (.attr receiver member))
      (h : t.resolution receiver = .error halt) : ExprFault t frame halt
  | receiverOutside {receiver type : NodeId} {member : Name}
      (hk : t.kind? frame.id = some (.attr receiver member))
      (ht : t.resolution receiver = .ok type) (hd : t.kind? type = none) :
      ExprFault t frame (.outside type)
  | receiverKind {receiver type : NodeId} {member : Name} {kind : Kind}
      (hk : t.kind? frame.id = some (.attr receiver member))
      (ht : t.resolution receiver = .ok type) (hd : t.kind? type = some kind)
      (hother : Construct.attributeReceiver.accepts kind = false) :
      ExprFault t frame
        (.defect (.unhandledType frame.id .attributeReceiver kind.label (t.span frame.id)))
  | memberType {receiver type : NodeId} {member name : Name} {definitions : List NodeId}
      {halt : Halt} (hk : t.kind? frame.id = some (.attr receiver member))
      (ht : t.resolution receiver = .ok type)
      (hd : t.kind? type = some (.package name definitions))
      (h : t.resolution frame.id = .error halt) : ExprFault t frame halt
  | memberOutside {type : NodeId} (ht : t.resolution frame.id = .ok type)
      (hd : t.kind? type = none) : ExprFault t frame (.outside type)
  | calleeType {callee : NodeId} {args : List NodeId} {halt : Halt}
      (hk : t.kind? frame.id = some (.call callee args))
      (h : t.resolution callee = .error halt) : ExprFault t frame halt
  | calleeOutside {callee type : NodeId} {args : List NodeId}
      (hk : t.kind? frame.id = some (.call callee args))
      (ht : t.resolution callee = .ok type) (hd : t.kind? type = none) :
      ExprFault t frame (.outside type)
  | calleeKind {callee type : NodeId} {args : List NodeId} {kind : Kind}
      (hk : t.kind? frame.id = some (.call callee args))
      (ht : t.resolution callee = .ok type) (hd : t.kind? type = some kind)
      (hother : Construct.callTarget.accepts kind = false) :
      ExprFault t frame
        (.defect (.unhandledType frame.id .callTarget kind.label (t.span frame.id)))
  | noReceiver {callee type : NodeId} {args : List NodeId} {kind : Kind} {name : Name}
      (hk : t.kind? frame.id = some (.call callee args))
      (ht : t.resolution callee = .ok type) (hd : t.kind? type = some kind)
      (hmember : kind.memberName? = some name) (hr : t.receiver? callee = none) :
      ExprFault t frame (.defect (.missingReceiver frame.id name.text (t.span frame.id)))
  | recursive {callee type body : NodeId} {args params : List NodeId} {form : CallableForm}
      {name : Name} (hk : t.kind? frame.id = some (.call callee args))
      (ht : t.resolution callee = .ok type)
      (hd : t.kind? type = some (.macroDef form name params body))
      (hmem : type ∈ frame.expanding) :
      ExprFault t frame (.defect (.recursiveMacro frame.id name.text (t.span frame.id)))
  | arity {callee type body : NodeId} {args params : List NodeId} {form : CallableForm}
      {name : Name} (hk : t.kind? frame.id = some (.call callee args))
      (ht : t.resolution callee = .ok type)
      (hd : t.kind? type = some (.macroDef form name params body))
      (hlt : args.length < params.length) :
      ExprFault t frame (.defect
        (.macroArity frame.id name.text params.length args.length (t.span frame.id)))
  | parameter {callee type body param : NodeId} {args params : List NodeId} {form : CallableForm}
      {name : Name} {halt : Halt} (hk : t.kind? frame.id = some (.call callee args))
      (ht : t.resolution callee = .ok type)
      (hd : t.kind? type = some (.macroDef form name params body)) (hp : param ∈ params)
      (h : t.parameterName param = .error halt) : ExprFault t frame halt

/-- The receiver of a callee is there exactly when the callee is an attribute. -/
theorem receiver?_eq_some_iff {callee receiver : NodeId} :
    t.receiver? callee = some receiver ↔
      ∃ member, t.kind? callee = some (.attr receiver member) := by
  unfold receiver?
  constructor
  · intro h
    split at h
    · next member hk =>
      cases h
      exact ⟨member, hk⟩
    · cases h
  · rintro ⟨member, hk⟩
    rw [hk]

theorem receiverText_error {id callee : NodeId} {name : Name} {halt : Halt}
    {render : (receiver : NodeId) → t.receiver? callee = some receiver → Rendered String}
    (h : t.receiverText id callee name render = .error halt) :
    (∃ receiver hr, render receiver hr = .error halt) ∨
      t.receiver? callee = none ∧
        halt = .defect (.missingReceiver id name.text (t.span id)) := by
  unfold receiverText at h
  split at h
  · next receiver hr => exact .inl ⟨receiver, hr, h⟩
  · next hr => cases h; exact .inr ⟨hr, rfl⟩

theorem varText_error {frame : Frame} {name : Name} {definition : Option NodeId} {halt : Halt}
    (hk : t.kind? frame.id = some (.var name definition))
    (h : t.varText o frame.namer frame.id name definition = .error halt) :
    t.ExprFault frame halt := by
  unfold varText at h
  split at h
  · cases h; exact .unbound hk
  · next definition =>
    split at h
    · next hd => cases h; exact .definitionOutside hk hd
    · next kind hd =>
      split at h
      · cases h
      · cases h
      · cases h
      · next hsite =>
        cases h
        exact .definitionKind hk hd (by simp [Construct.accepts, hsite])

theorem expansionScope_error {receiver : Option String} {params : List NodeId}
    {args : List String} {halt : Halt}
    (h : t.expansionScope o receiver params args = .error halt) :
    ∃ param ∈ params, t.parameterName param = .error halt := by
  rcases bind_eq_error_iff.1 h with h | ⟨_, _, h⟩
  · obtain ⟨param, hp, h⟩ := exists_of_collect_eq_error h
    exact ⟨param, hp, h⟩
  · cases h

/-- A call that keeps its callee fails at the callee or at an argument. -/
theorem callText_error {frame : Frame} {callee : NodeId} {args : List NodeId} {halt : Halt}
    {render : (inner : Frame) → t.Calls o frame inner → Rendered String}
    {hcallee : t.Calls o frame (frame.visit callee)}
    {hargs : ∀ arg ∈ args, t.Calls o frame (frame.visit arg)}
    {finish : String → List String → String}
    (h : (do
      let text ← render (frame.visit callee) hcallee
      let texts ← collect args fun arg ha => render (frame.visit arg) (hargs arg ha)
      return finish text texts : Rendered String) = .error halt) :
    ∃ inner hc, render inner hc = .error halt := by
  rcases bind_eq_error_iff.1 h with h | ⟨_, _, h⟩
  · exact ⟨_, _, h⟩
  · rcases bind_eq_error_iff.1 h with h | ⟨_, _, h⟩
    · obtain ⟨_, _, h⟩ := exists_of_collect_eq_error h
      exact ⟨_, _, h⟩
    · cases h

/-- A step fails because an activation that it starts fails or by itself. -/
theorem exprStep_error {frame : Frame} {halt : Halt}
    {render : (inner : Frame) → t.Calls o frame inner → Rendered String}
    (h : t.exprStep o frame render = .error halt) :
    (∃ inner hc, render inner hc = .error halt) ∨ t.ExprFault frame halt := by
  unfold exprStep at h
  split at h
  · next hk => cases h; exact .inr (.outside hk)
  · cases h
  · next elements hk =>
    rcases bind_eq_error_iff.1 h with h | ⟨_, _, h⟩
    · obtain ⟨element, _, h⟩ := exists_of_collect_eq_error h
      exact .inl ⟨_, _, h⟩
    · cases h
  · next parts hk =>
    rcases bind_eq_error_iff.1 h with h | ⟨_, _, h⟩
    · obtain ⟨part, _, h⟩ := exists_of_collect_eq_error h
      exact .inl ⟨_, _, h⟩
    · cases h
  · next hk => exact .inr (.type hk h)
  · next hk => exact .inr (varText_error hk h)
  · next receiver member hk =>
    rcases bind_eq_error_iff.1 h with h | ⟨type, ht, h⟩
    · exact .inr (.receiverType hk h)
    · split at h
      · next hd => cases h; exact .inr (.receiverOutside hk ht hd)
      · rcases bind_eq_error_iff.1 h with h | ⟨_, _, h⟩
        · exact .inl ⟨_, _, h⟩
        · cases h
      · rcases bind_eq_error_iff.1 h with h | ⟨_, _, h⟩
        · exact .inl ⟨_, _, h⟩
        · cases h
      · next hd =>
        rcases bind_eq_error_iff.1 h with h | ⟨text, _, h⟩
        · exact .inl ⟨_, _, h⟩
        · rcases bind_eq_error_iff.1 h with h | ⟨memberType, hm, h⟩
          · exact .inr (.memberType hk ht hd h)
          · split at h
            · next hd => cases h; exact .inr (.memberOutside hm hd)
            · cases h
            · cases h
      · next kind htypeDef hprimitive hpackage hd =>
        cases h
        refine .inr (.receiverKind hk ht hd ?_)
        cases kind with
        | typeDef => exact (htypeDef _ _ _ _ rfl).elim
        | primitive => exact (hprimitive _ rfl).elim
        | package => exact (hpackage _ _ rfl).elim
        | _ => rfl
  · next callee args hk =>
    split at h
    · next ht => cases h; exact .inr (.calleeType hk ht)
    · next type ht =>
      split at h
      · next hd => cases h; exact .inr (.calleeOutside hk ht hd)
      · exact .inl (callText_error h)
      · exact .inl (callText_error h)
      · exact .inl (callText_error h)
      · next hd =>
        rcases bind_eq_error_iff.1 h with h | ⟨_, _, h⟩
        · rcases receiverText_error h with ⟨_, _, h⟩ | ⟨hr, rfl⟩
          · exact .inl ⟨_, _, h⟩
          · exact .inr (.noReceiver hk ht hd rfl hr)
        · rcases bind_eq_error_iff.1 h with h | ⟨_, _, h⟩
          · obtain ⟨_, _, h⟩ := exists_of_collect_eq_error h
            exact .inl ⟨_, _, h⟩
          · cases h
      · next form name params body hd =>
        rcases bind_eq_error_iff.1 h with h | ⟨receiver, _, h⟩
        · split at h
          · cases h
          · rw [map_eq_error_iff] at h
            rcases receiverText_error h with ⟨_, _, h⟩ | ⟨hr, rfl⟩
            · exact .inl ⟨_, _, h⟩
            · exact .inr (.noReceiver hk ht hd rfl hr)
        · split at h
          · next hmem => cases h; exact .inr (.recursive hk ht hd hmem)
          · rcases bind_eq_error_iff.1 h with h | ⟨texts, htexts, h⟩
            · obtain ⟨_, _, h⟩ := exists_of_collect_eq_error h
              exact .inl ⟨_, _, h⟩
            · have hlength := length_of_collect_eq_ok htexts
              split at h
              · next hlt =>
                cases h
                rw [hlength] at hlt ⊢
                exact .inr (.arity hk ht hd hlt)
              · rcases bind_eq_error_iff.1 h with h | ⟨scope, _, h⟩
                · obtain ⟨param, hp, h⟩ := expansionScope_error h
                  exact .inr (.parameter hk ht hd hp h)
                · exact .inl ⟨_, _, h⟩
      · next kind htypeDef hprimitive hfree hmember hexpands hd =>
        cases h
        refine .inr (.calleeKind hk ht hd ?_)
        cases kind with
        | typeDef => exact (htypeDef _ _ _ _ rfl).elim
        | primitive => exact (hprimitive _ rfl).elim
        | callable form =>
          cases form with
          | free => exact (hfree _ _ _ _ rfl).elim
          | member => exact (hmember _ _ _ _ rfl).elim
        | macroDef => exact (hexpands _ _ _ _ rfl).elim
        | _ => rfl
  · next kind hliteral hlist hnative htypeRef hvar hattr hcall hk =>
    cases h
    refine .inr (.notExpression hk ?_)
    cases kind with
    | literal => exact (hliteral _ _ rfl).elim
    | list => exact (hlist _ rfl).elim
    | native => exact (hnative _ rfl).elim
    | typeRef => exact (htypeRef _ _ rfl).elim
    | var => exact (hvar _ _ rfl).elim
    | attr => exact (hattr _ _ rfl).elim
    | call => exact (hcall _ _ rfl).elim
    | _ => rfl

/-- The activations of a run: what an activation starts, directly or not. -/
def Reaches (t : Tree) (o : Options) : Frame → Frame → Prop := Relation.ReflTransGen (t.Calls o)

/-- A failure of a run is a fault of one of its activations. -/
theorem exprText_error {namer : Namer} {expanding : List NodeId} {id : NodeId} {halt : Halt}
    (h : t.exprText o namer expanding id = .error halt) :
    ∃ frame, t.Reaches o { namer, expanding, id } frame ∧ t.ExprFault frame halt := by
  induction namer, expanding, id using exprText.induct t o with
  | case1 namer expanding id ih =>
    rw [exprText] at h
    rcases exprStep_error h with ⟨inner, hc, hinner⟩ | hfault
    · obtain ⟨frame, hreach, hfault⟩ := ih inner hc hinner
      exact ⟨frame, .head hc hreach, hfault⟩
    · exact ⟨_, .refl, hfault⟩

end Tree

end Emitter
