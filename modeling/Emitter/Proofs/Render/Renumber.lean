import Emitter.Proofs.Render.Diagnosis
import Emitter.Proofs.Render.Equation
import Emitter.Proofs.Tree.Renumber

/-!
# Rendering renumbered trees

Rendering follows the tree and writes words, never numbers.  Between two trees that correspond
(`Tree.Renumbers`) every renderer gives the same text, or the same failure with the new number
of its node (`Halt.renumber`).  There is one equation for each renderer, and two runs are
compared by rewriting both with the equation of the node's kind.

Numbers are compared in one place, where a macro is looked for among the macros under
expansion.  The change of numbers is injective, so the two runs refuse the same calls.
-/

namespace Emitter

/-- The defect with the number of its node changed. -/
def RenderError.renumber (f : NodeId → NodeId) : RenderError → RenderError
  | unhandledNode node kind position span => unhandledNode (f node) kind position span
  | unhandledType node construct found span => unhandledType (f node) construct found span
  | missingDefinition node name span => missingDefinition (f node) name span
  | missingResolution node kind span => missingResolution (f node) kind span
  | macroArity node name expected found span => macroArity (f node) name expected found span
  | missingReceiver node name span => missingReceiver (f node) name span
  | recursiveMacro node name span => recursiveMacro (f node) name span

/-- The end of rendering with the number in it changed. -/
def Halt.renumber (f : NodeId → NodeId) : Halt → Halt
  | defect cause => defect (cause.renumber f)
  | outside node => outside (f node)
  | tooWide => tooWide

namespace Tree

/-- An expression has the same text at a node and under the new number of the node, or the same
end with the new number in it. -/
def SameText (f : NodeId → NodeId) (t moved : Tree) (o : Options) (namer : Namer)
    (expanding : List NodeId) (id : NodeId) : Prop :=
  moved.exprText o namer (expanding.map f) (f id) =
    (t.exprText o namer expanding id).mapError (Halt.renumber f)

namespace Renumbers

variable {f : NodeId → NodeId} {t moved : Tree} (h : t.Renumbers f moved)

include h

theorem unhandled (id : NodeId) (kind : Kind) (position : Position) :
    moved.unhandled (f id) (kind.renumber f) position =
      (t.unhandled id kind position).renumber f := by
  unfold Tree.unhandled
  rw [h.span, Kind.label_renumber]
  rfl

theorem resolution (id : NodeId) :
    moved.resolution (f id) = ((t.resolution id).map f).mapError (Halt.renumber f) := by
  unfold Tree.resolution
  rw [h.node]
  cases t.node? id with
  | none => rfl
  | some node =>
    cases hr : node.resolved with
    | none => simp [Node.renumber, hr, Except.map, Except.mapError, Halt.renumber,
        RenderError.renumber]
    | some type => simp [Node.renumber, hr, Except.map, Except.mapError]

theorem resolution_of_ok {id type : NodeId} (ht : t.resolution id = .ok type) :
    moved.resolution (f id) = .ok (f type) := by
  rw [h.resolution, ht]
  rfl

theorem resolution_of_error {id : NodeId} {halt : Halt} (ht : t.resolution id = .error halt) :
    moved.resolution (f id) = .error (halt.renumber f) := by
  rw [h.resolution, ht]
  rfl

theorem receiver? (callee : NodeId) : moved.receiver? (f callee) = (t.receiver? callee).map f := by
  unfold Tree.receiver?
  rw [h.kind?]
  cases t.kind? callee with
  | none => rfl
  | some kind => cases kind <;> rfl

/-! ## Types and names -/

theorem typeText (namer : Namer) (id : NodeId) :
    moved.typeText namer (f id) = (t.typeText namer id).mapError (Halt.renumber f) := by
  induction id using induction_below (t := t) with
  | step id ih =>
    cases hk : t.kind? id with
    | none =>
      rw [typeText_outside (h.kind?_of_none hk), typeText_outside hk]
      rfl
    | some kind =>
      have hk' := h.kind?_of_some hk
      cases kind with
      | typeRef path parameters =>
        rw [typeText_typeRef hk', typeText_typeRef hk]
        refine bind_eq_mapError ?_ fun _ _ => rfl
        exact collect_eq_mapError fun parameter hp => ih _ parameter hk hp
      | _ =>
        rw [typeText_notType hk' rfl, typeText_notType hk rfl, h.unhandled]
        rfl

theorem varText (o : Options) (namer : Namer) (id : NodeId) (name : Name)
    (definition : Option NodeId) :
    moved.varText o namer (f id) name (definition.map f) =
      (t.varText o namer id name definition).mapError (Halt.renumber f) := by
  cases definition with
  | none =>
    simp only [Tree.varText, Option.map_none, h.span]
    rfl
  | some target =>
    simp only [Tree.varText, Option.map_some, h.kind?, h.package, h.span]
    cases t.kind? target with
    | none => rfl
    | some kind =>
      simp only [Option.map_some, Kind.bindingSite_renumber, Kind.label_renumber]
      cases kind.bindingSite with
      | none => rfl
      | some site => cases site <;> rfl

theorem parameterName (id : NodeId) :
    moved.parameterName (f id) = (t.parameterName id).mapError (Halt.renumber f) := by
  unfold Tree.parameterName
  rw [h.kind?]
  cases t.kind? id with
  | none => rfl
  | some kind =>
    simp only [Option.map_some, Kind.name?_renumber, h.unhandled]
    cases kind.name? <;> rfl

theorem expansionScope (o : Options) (receiver : Option String) (params : List NodeId)
    (args : List String) :
    moved.expansionScope o receiver (params.map f) args =
      (t.expansionScope o receiver params args).mapError (Halt.renumber f) := by
  refine bind_eq_mapError ?_ fun _ _ => rfl
  exact collect_eq_mapError fun param _ => h.parameterName param

theorem receiverText {id callee : NodeId} {name : Name} {first second : NodeId → Rendered String}
    (hfollows : ∀ receiver, t.receiver? callee = some receiver →
      second (f receiver) = (first receiver).mapError (Halt.renumber f)) :
    (moved.receiverText (f id) (f callee) name fun receiver _ => second receiver) =
      (t.receiverText id callee name fun receiver _ => first receiver).mapError
        (Halt.renumber f) := by
  have hr := h.receiver? callee
  rcases Option.eq_none_or_eq_some (t.receiver? callee) with hnone | ⟨receiver, hsome⟩
  · rw [hnone, Option.map_none] at hr
    rw [receiverText_of_none hr, receiverText_of_none hnone, h.span]
    rfl
  · rw [hsome, Option.map_some] at hr
    rw [receiverText_of_some hr, receiverText_of_some hsome]
    exact hfollows receiver hsome

/-! ## Expressions -/

section

variable {o : Options} {namer : Namer} {expanding : List NodeId} {id : NodeId}

/-- An attribute follows its receiver, and the types that both trees record. -/
theorem exprText_attr {receiver : NodeId} {member : Name}
    (hk : t.kind? id = some (.attr receiver member))
    (hreceiver : SameText f t moved o namer expanding receiver) :
    SameText f t moved o namer expanding id := by
  unfold SameText
  rw [Tree.exprText_attr (h.kind?_of_some hk), Tree.exprText_attr hk]
  simp only [h.span]
  refine bind_map_eq (h.resolution receiver) fun type _ => ?_
  rw [h.kind?]
  cases t.kind? type with
  | none => rfl
  | some kind =>
    cases kind with
    | typeDef | primitive => exact bind_eq_mapError hreceiver fun _ _ => rfl
    | package =>
      refine bind_eq_mapError hreceiver fun text _ => ?_
      refine bind_map_eq (h.resolution id) fun found _ => ?_
      rw [h.kind?]
      cases t.kind? found with
      | none => rfl
      | some kind =>
        cases kind with
        | callable form => cases form <;> rfl
        | _ => rfl
    | callable form | macroDef form | binding form | literal form => cases form <;> rfl
    | _ => rfl

/-- A macro call follows its receiver, its arguments and the body. -/
theorem exprText_expansion {callee type body : NodeId} {args params : List NodeId}
    {form : CallableForm} {name : Name} (hk : t.kind? id = some (.call callee args))
    (ht : t.resolution callee = .ok type)
    (hd : t.kind? type = some (.macroDef form name params body))
    (hreceiver : ∀ receiver, t.receiver? callee = some receiver →
      SameText f t moved o namer expanding receiver)
    (hargs : ∀ arg ∈ args, SameText f t moved o namer expanding arg)
    (hbody : type ∉ expanding → ∀ scope,
      SameText f t moved o (o.scoped scope) (type :: expanding) body) :
    SameText f t moved o namer expanding id := by
  unfold SameText
  have hmem : f type ∈ expanding.map f ↔ type ∈ expanding :=
    List.mem_map_of_injective h.injective
  rw [Tree.exprText_expansion (h.kind?_of_some hk) (h.resolution_of_ok ht) (h.kind?_of_some hd),
    Tree.exprText_expansion hk ht hd, h.span]
  refine bind_eq_mapError ?_ fun receiver _ => ?_
  · cases form with
    | free => rfl
    | member =>
      show Except.map some _ = Except.mapError _ (Except.map some _)
      rw [h.receiverText hreceiver]
      cases t.receiverText id callee name fun receiver _ =>
        t.exprText o namer expanding receiver with
      | error halt => rfl
      | ok text => rfl
  · by_cases hold : type ∈ expanding
    · rw [if_pos hold, if_pos (hmem.2 hold)]
      rfl
    · rw [if_neg hold, if_neg (hmem.not.2 hold)]
      refine bind_eq_mapError (collect_eq_mapError hargs) fun texts _ => ?_
      rw [List.length_map]
      by_cases hfew : texts.length < params.length
      · rw [if_pos hfew, if_pos hfew]
        rfl
      · rw [if_neg hfew, if_neg hfew]
        exact bind_eq_mapError (h.expansionScope o receiver params texts)
          fun scope _ => hbody hold scope

theorem exprText_call {callee : NodeId} {args : List NodeId}
    (hk : t.kind? id = some (.call callee args))
    (hcallee : SameText f t moved o namer expanding callee)
    (hreceiver : ∀ receiver, t.receiver? callee = some receiver →
      SameText f t moved o namer expanding receiver)
    (hargs : ∀ arg ∈ args, SameText f t moved o namer expanding arg)
    (hbody : ∀ type form name params body, t.resolution callee = .ok type →
      t.kind? type = some (.macroDef form name params body) → type ∉ expanding → ∀ scope,
      SameText f t moved o (o.scoped scope) (type :: expanding) body) :
    SameText f t moved o namer expanding id := by
  unfold SameText
  have hk' := h.kind?_of_some hk
  have htexts : (collect (args.map f) fun arg _ => moved.exprText o namer (expanding.map f) arg) =
      (collect args fun arg _ => t.exprText o namer expanding arg).mapError (Halt.renumber f) :=
    collect_eq_mapError hargs
  cases ht : t.resolution callee with
  | error halt =>
    rw [exprText_call_unresolved hk' (h.resolution_of_error ht), exprText_call_unresolved hk ht]
    rfl
  | ok type =>
    have ht' := h.resolution_of_ok ht
    cases hd : t.kind? type with
    | none =>
      rw [exprText_call_outside hk' ht' (h.kind?_of_none hd), exprText_call_outside hk ht hd]
      rfl
    | some kind =>
      have hd' := h.kind?_of_some hd
      cases kind with
      | typeDef | primitive =>
        rw [exprText_construct hk' ht' hd' rfl, exprText_construct hk ht hd rfl]
        exact bind_eq_mapError hcallee fun _ _ => bind_eq_mapError htexts fun _ _ => rfl
      | callable form =>
        cases form with
        | free =>
          rw [exprText_function hk' ht' hd', exprText_function hk ht hd]
          exact bind_eq_mapError hcallee fun _ _ => bind_eq_mapError htexts fun _ _ => rfl
        | member =>
          rw [exprText_method hk' ht' hd', exprText_method hk ht hd]
          exact bind_eq_mapError (h.receiverText hreceiver) fun _ _ =>
            bind_eq_mapError htexts fun _ _ => rfl
      | macroDef form name params body =>
        exact h.exprText_expansion hk ht hd hreceiver hargs (hbody _ _ _ _ _ ht hd)
      | _ =>
        rw [exprText_call_refused hk' ht' hd' rfl, exprText_call_refused hk ht hd rfl, h.span,
          Kind.label_renumber]
        rfl

end

/-- An expression has the same text in both trees. -/
theorem exprText (o : Options) (namer : Namer) (expanding : List NodeId) (id : NodeId) :
    moved.exprText o namer (expanding.map f) (f id) =
      (t.exprText o namer expanding id).mapError (Halt.renumber f) := by
  -- The second run follows the recursion of the first: an activation of the one corresponds
  -- to an activation of the other, with the same names and the renumbered macros.
  induction namer, expanding, id using exprText.induct t o with
  | case1 namer expanding id ih =>
    cases hk : t.kind? id with
    | none =>
      rw [exprText_outside hk, exprText_outside (h.kind?_of_none hk)]
      rfl
    | some kind =>
      have hk' := h.kind?_of_some hk
      have hchild : ∀ child ∈ kind.children, SameText f t moved o namer expanding child :=
        fun child hc => ih _ (.child hk hc)
      cases kind with
      | literal =>
        rw [exprText_literal hk, exprText_literal hk']
        rfl
      | list elements =>
        rw [exprText_list hk, exprText_list hk']
        exact bind_eq_mapError (collect_eq_mapError hchild) fun _ _ => rfl
      | native parts =>
        rw [exprText_native hk, exprText_native hk']
        exact bind_eq_mapError (collect_eq_mapError hchild) fun _ _ => rfl
      | typeRef path parameters =>
        rw [exprText_typeRef hk, exprText_typeRef hk']
        exact h.typeText namer id
      | var name definition =>
        rw [exprText_var hk, exprText_var hk']
        exact h.varText o namer id name definition
      | attr receiver member => exact h.exprText_attr hk (hchild receiver List.mem_cons_self)
      | call callee args =>
        refine h.exprText_call hk (hchild callee List.mem_cons_self) ?_ ?_ ?_
        · exact fun receiver hr => ih _ (.receiver hk hr)
        · exact fun arg ha => hchild arg (List.mem_cons_of_mem callee ha)
        · exact fun type form name params body ht hd hnew scope =>
            ih { namer := o.scoped scope, expanding := type :: expanding, id := body }
              (.body hk ht hd hnew)
      | _ =>
        rw [exprText_notExpression hk rfl, exprText_notExpression hk' rfl, h.unhandled]
        rfl

theorem expr (o : Options) (id : NodeId) :
    moved.expr o (f id) = (t.expr o id).mapError (Halt.renumber f) :=
  h.exprText o o.namer [] id

/-! ## Statements -/

theorem bindingText (o : Options) (type : NodeId) (name : Name) (value : Option NodeId) :
    moved.bindingText o (f type) name (value.map f) =
      (t.bindingText o type name value).mapError (Halt.renumber f) := by
  refine bind_eq_mapError (h.typeText o.namer type) fun _ _ => ?_
  cases value with
  | none => rfl
  | some value => exact bind_eq_mapError (h.expr o value) fun _ _ => rfl

theorem targetText (o : Options) (id : NodeId) :
    moved.targetText o (f id) = (t.targetText o id).mapError (Halt.renumber f) := by
  unfold Tree.targetText
  rw [h.kind?]
  cases t.kind? id with
  | none => rfl
  | some kind =>
    cases kind with
    | var => rfl
    | attr receiver => exact bind_eq_mapError (h.expr o receiver) fun _ _ => rfl
    | _ => exact congrArg Except.error (h.unhandled id _ _)

theorem returnText (o : Options) (returnType : Option NodeId) :
    moved.returnText o (returnType.map f) =
      (t.returnText o returnType).mapError (Halt.renumber f) := by
  cases returnType with
  | none => rfl
  | some type => exact bind_eq_mapError (h.typeText o.namer type) fun _ _ => rfl

omit h in
/-- Nothing about nodes can go wrong between braces. -/
theorem braced (f : NodeId → NodeId) (o : Options) (text : String) :
    o.braced text = (o.braced text).mapError (Halt.renumber f) := by
  unfold Options.braced
  cases nested? o.indentWidth text <;> rfl

/-- A statement has the same text in both trees. -/
theorem stmtText (o : Options) (id : NodeId) :
    moved.stmtText o (f id) = (t.stmtText o id).mapError (Halt.renumber f) := by
  induction id using induction_below (t := t) with
  | step id ih =>
    cases hk : t.kind? id with
    | none =>
      rw [stmtText_of_outside hk, stmtText_of_outside (h.kind?_of_none hk)]
      rfl
    | some kind =>
      have hchild : ∀ child ∈ kind.children,
          moved.stmtText o (f child) = (t.stmtText o child).mapError (Halt.renumber f) :=
        fun child hc => ih _ child hk hc
      rw [stmtText_of_kind? hk, stmtText_of_kind? (h.kind?_of_some hk)]
      cases kind with
      | typeDef form name parameters definitions =>
        refine bind_eq_mapError (collect_eq_mapError fun p hp => ?_) fun _ _ => ?_
        · exact hchild p (List.mem_append_left _ hp)
        · refine bind_eq_mapError (collect_eq_mapError fun d hd => ?_) fun _ _ => ?_
          · exact hchild d (List.mem_append_right _ hd)
          · exact bind_eq_mapError (braced f o _) fun _ _ => rfl
      | typeParam => rfl
      | callable form name returnType params body =>
        refine bind_eq_mapError (h.returnText o returnType) fun _ _ => ?_
        refine bind_eq_mapError (collect_eq_mapError fun p hp => ?_) fun _ _ => ?_
        · exact hchild p (by simp [Kind.children, hp])
        · refine bind_eq_mapError ?_ fun _ _ => rfl
          cases body with
          | none => rfl
          | some block =>
            have hblock := hchild block (by simp [Kind.children])
            exact bind_eq_mapError hblock fun _ _ => bind_eq_mapError (braced f o _) fun _ _ => rfl
      | macroDef => rfl
      | binding form type name value =>
        have hbinding := h.bindingText o type name value
        cases form with
        | plain => exact hbinding
        | field => exact bind_eq_mapError hbinding fun _ _ => rfl
      | block statements => exact bind_eq_mapError (collect_eq_mapError hchild) fun _ _ => rfl
      | localBinding declaration =>
        exact bind_eq_mapError (hchild declaration List.mem_cons_self) fun _ _ => rfl
      | ret value =>
        cases value with
        | none => rfl
        | some value => exact bind_eq_mapError (h.expr o value) fun _ _ => rfl
      | exprStmt value => exact bind_eq_mapError (h.expr o value) fun _ _ => rfl
      | assign target value =>
        exact bind_eq_mapError (h.targetText o target) fun _ _ =>
          bind_eq_mapError (h.expr o value) fun _ _ => rfl
      | cond predicate consequence alternative =>
        have hpositive := hchild consequence (by simp [Kind.children])
        refine bind_eq_mapError (h.expr o predicate) fun _ _ => ?_
        refine bind_eq_mapError hpositive fun _ _ => ?_
        refine bind_eq_mapError (braced f o _) fun _ _ => bind_eq_mapError ?_ fun _ _ => rfl
        cases alternative with
        | none => rfl
        | some block =>
          have hnegative := hchild block (by simp [Kind.children])
          exact bind_eq_mapError hnegative fun _ _ =>
            bind_eq_mapError (braced f o _) fun _ _ => rfl
      | _ => exact congrArg Except.error (h.unhandled id _ _)

end Renumbers

end Tree

end Emitter
