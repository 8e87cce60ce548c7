import Emitter.Proofs.Render.Fault

/-!
# Rendering, one kind at a time

What `Tree.typeText` and `Tree.exprText` make of a node, by the kind of the node and, for
calls, by what the callee resolves to.  The equations speak of the texts of other nodes and not of the steps
that lead there, so two runs are compared by rewriting both with the same equation.
Statements make no choice beyond the kind of the node and have one equation for all kinds
(`stmtText_of_kind?`).
-/

namespace Emitter

namespace Tree

variable {t : Tree} {o : Options} {namer : Namer} {expanding : List NodeId} {id : NodeId}

/-! ## Types -/

theorem typeText_outside (hk : t.kind? id = none) :
    t.typeText namer id = .error (.outside id) := by
  rw [typeText]
  split <;> rename_i hk' <;> cases hk.symm.trans hk'
  rfl

theorem typeText_typeRef {path : List Name} {parameters : List NodeId}
    (hk : t.kind? id = some (.typeRef path parameters)) :
    t.typeText namer id = (do
      let head := ".".intercalate (path.map namer.name)
      let args ← collect parameters fun parameter _ => t.typeText namer parameter
      return if args.isEmpty then head else head ++ "<" ++ ",".intercalate args ++ ">") := by
  rw [typeText]
  split <;> rename_i hk' <;> cases hk.symm.trans hk'
  · rfl
  · grind

theorem typeText_notType {kind : Kind} (hk : t.kind? id = some kind)
    (hother : Position.type.accepts kind = false) :
    t.typeText namer id = .error (t.unhandled id kind .type) := by
  rw [typeText]
  split <;> rename_i hk' <;> cases hk.symm.trans hk'
  · cases hother
  · rfl

/-! ## Nodes without a choice -/

theorem exprText_outside (hk : t.kind? id = none) :
    t.exprText o namer expanding id = .error (.outside id) := by
  rw [exprText, exprStep]
  split <;> rename_i hk' <;> cases hk.symm.trans hk'
  rfl

theorem exprText_literal {form : LiteralForm} {text : String}
    (hk : t.kind? id = some (.literal form text)) :
    t.exprText o namer expanding id = .ok text := by
  rw [exprText, exprStep]
  split <;> rename_i hk' <;> cases hk.symm.trans hk'
  · rfl
  · grind

theorem exprText_list {elements : List NodeId} (hk : t.kind? id = some (.list elements)) :
    t.exprText o namer expanding id = (do
      let texts ← collect elements fun element _ => t.exprText o namer expanding element
      return "new java.util.ArrayList(java.util.Arrays.asList(new Object[]\x7b" ++
        ", ".intercalate texts ++ "\x7d))") := by
  rw [exprText, exprStep]
  split <;> rename_i hk' <;> cases hk.symm.trans hk'
  · rfl
  · grind

theorem exprText_native {parts : List NodeId} (hk : t.kind? id = some (.native parts)) :
    t.exprText o namer expanding id = (do
      let texts ← collect parts fun part _ => t.exprText o namer expanding part
      return String.join texts) := by
  rw [exprText, exprStep]
  split <;> rename_i hk' <;> cases hk.symm.trans hk'
  · rfl
  · grind

theorem exprText_typeRef {path : List Name} {parameters : List NodeId}
    (hk : t.kind? id = some (.typeRef path parameters)) :
    t.exprText o namer expanding id = t.typeText namer id := by
  rw [exprText, exprStep]
  split <;> rename_i hk' <;> cases hk.symm.trans hk'
  · rfl
  · grind

theorem exprText_var {name : Name} {definition : Option NodeId}
    (hk : t.kind? id = some (.var name definition)) :
    t.exprText o namer expanding id = t.varText o namer id name definition := by
  rw [exprText, exprStep]
  split <;> rename_i hk' <;> cases hk.symm.trans hk'
  · rfl
  · grind

theorem exprText_notExpression {kind : Kind} (hk : t.kind? id = some kind)
    (hother : Position.expression.accepts kind = false) :
    t.exprText o namer expanding id = .error (t.unhandled id kind .expression) := by
  rw [exprText, exprStep]
  split <;> rename_i hk' <;> cases hk.symm.trans hk'
  case h_9 => rfl
  all_goals cases hother

/-! ## Attributes -/

theorem exprText_attr {receiver : NodeId} {member : Name}
    (hk : t.kind? id = some (.attr receiver member)) :
    t.exprText o namer expanding id = (do
      let type ← t.resolution receiver
      match t.kind? type with
      | none => .error (.outside type)
      | some (.typeDef ..) | some (.primitive _) =>
        let text ← t.exprText o namer expanding receiver
        return "(" ++ text ++ ")." ++ member.text
      | some (.package ..) =>
        let text ← t.exprText o namer expanding receiver
        let memberType ← t.resolution id
        match t.kind? memberType with
        | none => .error (.outside memberType)
        | some (.callable .free ..) => return holderAccess o (some text) member.text
        | some _ => return text ++ "." ++ member.text
      | some other =>
        .error (.defect (.unhandledType id .attributeReceiver other.label (t.span id)))) := by
  rw [exprText, exprStep]
  split <;> rename_i hk' <;> cases hk.symm.trans hk'
  · rfl
  · grind

/-! ## Calls -/

theorem receiverText_of_some {callee receiver : NodeId} {name : Name}
    {render : (receiver : NodeId) → t.receiver? callee = some receiver → Rendered String}
    (hr : t.receiver? callee = some receiver) :
    t.receiverText id callee name render = render receiver hr := by
  unfold receiverText
  split <;> rename_i hr' <;> cases hr.symm.trans hr'
  rfl

theorem receiverText_of_none {callee : NodeId} {name : Name}
    {render : (receiver : NodeId) → t.receiver? callee = some receiver → Rendered String}
    (hr : t.receiver? callee = none) :
    t.receiverText id callee name render =
      .error (.defect (.missingReceiver id name.text (t.span id))) := by
  unfold receiverText
  split <;> rename_i hr' <;> cases hr.symm.trans hr'
  rfl

section

variable {callee type : NodeId} {args : List NodeId}
  (hk : t.kind? id = some (.call callee args))

include hk in
theorem exprText_call_unresolved {halt : Halt} (ht : t.resolution callee = .error halt) :
    t.exprText o namer expanding id = .error halt := by
  rw [exprText, exprStep]
  split <;> rename_i hk' <;> cases hk.symm.trans hk'
  · split <;> rename_i ht' <;> cases ht.symm.trans ht'
    rfl
  · grind

variable (ht : t.resolution callee = .ok type)

include hk ht in
theorem exprText_call_outside (hd : t.kind? type = none) :
    t.exprText o namer expanding id = .error (.outside type) := by
  rw [exprText, exprStep]
  split <;> rename_i hk' <;> cases hk.symm.trans hk'
  · split <;> rename_i ht' <;> cases ht.symm.trans ht'
    split <;> rename_i hd' <;> cases hd.symm.trans hd'
    rfl
  · grind

include hk ht in
theorem exprText_construct {kind : Kind} (hd : t.kind? type = some kind)
    (hkind : kind.isObjectType = true) :
    t.exprText o namer expanding id = (do
      let text ← t.exprText o namer expanding callee
      let texts ← collect args fun arg _ => t.exprText o namer expanding arg
      return "new " ++ text ++ "(" ++ ", ".intercalate texts ++ ")") := by
  rw [exprText, exprStep]
  split <;> rename_i hk' <;> cases hk.symm.trans hk'
  · split <;> rename_i ht' <;> cases ht.symm.trans ht'
    split <;> rename_i hd' <;> cases hd.symm.trans hd'
    case h_2 | h_3 => rfl
    case h_4 | h_5 | h_6 => cases hkind
    case h_7 htypeDef hprimitive _ _ _ =>
      cases kind with
      | typeDef => exact (htypeDef _ _ _ _ rfl).elim
      | primitive => exact (hprimitive _ rfl).elim
      | _ => cases hkind
  · grind

include hk ht in
theorem exprText_function {name : Name} {returnType body : Option NodeId} {params : List NodeId}
    (hd : t.kind? type = some (.callable .free name returnType params body)) :
    t.exprText o namer expanding id = (do
      let text ← t.exprText o namer expanding callee
      let texts ← collect args fun arg _ => t.exprText o namer expanding arg
      return text ++ "(" ++ ", ".intercalate texts ++ ")") := by
  rw [exprText, exprStep]
  split <;> rename_i hk' <;> cases hk.symm.trans hk'
  · split <;> rename_i ht' <;> cases ht.symm.trans ht'
    split <;> rename_i hd' <;> cases hd.symm.trans hd'
    · rfl
    · grind
  · grind

include hk ht in
theorem exprText_method {name : Name} {returnType body : Option NodeId} {params : List NodeId}
    (hd : t.kind? type = some (.callable .member name returnType params body)) :
    t.exprText o namer expanding id = (do
      let text ← t.receiverText id callee name fun receiver _ =>
        t.exprText o namer expanding receiver
      let texts ← collect args fun arg _ => t.exprText o namer expanding arg
      return "(" ++ text ++ ")." ++ name.text ++ "(" ++ ", ".intercalate texts ++ ")") := by
  rw [exprText, exprStep]
  split <;> rename_i hk' <;> cases hk.symm.trans hk'
  · split <;> rename_i ht' <;> cases ht.symm.trans ht'
    split <;> rename_i hd' <;> cases hd.symm.trans hd'
    · rfl
    · grind
  · grind

include hk ht in
/-- A macro call is replaced by the body of the macro, rendered in a scope of its own. -/
theorem exprText_expansion {form : CallableForm} {name : Name} {params : List NodeId}
    {body : NodeId} (hd : t.kind? type = some (.macroDef form name params body)) :
    t.exprText o namer expanding id = (do
      let receiver ← (match form with
        | .free => .ok none
        | .member => (t.receiverText id callee name fun receiver _ =>
            t.exprText o namer expanding receiver).map some : Rendered (Option String))
      if type ∈ expanding then
        .error (.defect (.recursiveMacro id name.text (t.span id)))
      else
        let texts ← collect args fun arg _ => t.exprText o namer expanding arg
        if texts.length < params.length then
          .error (.defect (.macroArity id name.text params.length texts.length (t.span id)))
        else
          let scope ← t.expansionScope o receiver params texts
          t.exprText o (o.scoped scope) (type :: expanding) body) := by
  rw [exprText, exprStep]
  split <;> rename_i hk' <;> cases hk.symm.trans hk'
  · split <;> rename_i ht' <;> cases ht.symm.trans ht'
    split <;> rename_i hd' <;> cases hd.symm.trans hd'
    · cases form <;> rfl
    · grind
  · grind

include hk ht in
theorem exprText_call_refused {kind : Kind} (hd : t.kind? type = some kind)
    (hother : Construct.callTarget.accepts kind = false) :
    t.exprText o namer expanding id =
      .error (.defect (.unhandledType id .callTarget kind.label (t.span id))) := by
  rw [exprText, exprStep]
  split <;> rename_i hk' <;> cases hk.symm.trans hk'
  · split <;> rename_i ht' <;> cases ht.symm.trans ht'
    split <;> rename_i hd' <;> cases hd.symm.trans hd'
    case h_7 => rfl
    all_goals cases hother
  · grind

end

/-! ## Statements -/

theorem stmtText_of_kind? {kind : Kind} : t.kind? id = some kind →
    t.stmtText o id =
      match kind with
      | .typeDef form name parameters definitions => do
        let params ← collect parameters fun parameter _ => t.stmtText o parameter
        let members ← collect definitions fun definition _ => t.stmtText o definition
        let generics := if params.isEmpty then "" else "<" ++ ", ".intercalate params ++ ">"
        let body ← o.braced ("\n".intercalate (members.filter fun text => !text.isEmpty))
        return "public " ++ form.keyword ++ " " ++ o.namer.name name ++ generics ++ " " ++ body
      | .typeParam name => .ok (o.namer.name name)
      | .callable form name returnType params body => do
        let returns ← t.returnText o returnType
        let texts ← collect params fun param _ => t.stmtText o param
        let tail ← (match body with
          | some block => do
            let text ← t.stmtText o block
            return " " ++ (← o.braced text)
          | none => .ok ";" : Rendered String)
        return form.modifiers ++ " " ++ returns ++ o.namer.name name ++ "(" ++
          ", ".intercalate texts ++ ")" ++ tail
      | .macroDef .. => .ok ""
      | .binding .plain type name value => t.bindingText o type name value
      | .binding .field type name value => do
        let text ← t.bindingText o type name value
        return text ++ ";"
      | .block statements => do
        let texts ← collect statements fun statement _ => t.stmtText o statement
        return "\n".intercalate texts
      | .localBinding declaration => do
        let text ← t.stmtText o declaration
        return text ++ ";"
      | .ret none => .ok "return;"
      | .ret (some value) => do
        let text ← t.expr o value
        return "return " ++ text ++ ";"
      | .exprStmt value => do
        let text ← t.expr o value
        return text ++ ";"
      | .assign target value => do
        let left ← t.targetText o target
        let right ← t.expr o value
        return left ++ " = " ++ right ++ ";"
      | .cond predicate consequence alternative => do
        let test ← t.expr o predicate
        let text ← t.stmtText o consequence
        let positive ← o.braced text
        let negative ← (match alternative with
          | some block => do
            let text ← t.stmtText o block
            return " else " ++ (← o.braced text)
          | none => .ok "" : Rendered String)
        return "if (" ++ test ++ ") " ++ positive ++ negative
      | other => .error (t.unhandled id other .statement) := by
  intro hk
  rw [stmtText]
  split <;> rename_i hk' <;> cases hk.symm.trans hk'
  case h_4 body => cases body <;> rfl
  case h_14 alternative => cases alternative <;> rfl
  case h_15 => grind
  all_goals rfl

end Tree

end Emitter
