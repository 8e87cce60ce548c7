import Emitter.Render.Expr
import Emitter.Text.Indent

/-!
# Declarations and statements

`Tree.stmtText` renders one class, callable, field or statement.  Package
headers and files are the business of `Emitter.Project`.

Macros have no text of their own, and a class drops members without text.
-/

-- The names of match equations are used by the termination proofs only.
set_option linter.unusedVariables false

namespace Emitter

/-- The text of a body between braces, one level deeper. -/
def Options.braced (o : Options) (text : String) : Rendered String :=
  match nested? o.indentWidth text with
  | some body => .ok ("\x7b" ++ body ++ "\x7d")
  | none => .error .tooWide

theorem Options.braced_of_lt {o : Options} (text : String) (h : o.indentWidth < widthLimit) :
    o.braced text = .ok ("\x7b" ++ indent o.indentWidth text ++ "\x7d") := by
  rw [braced, nested?_of_lt text h]

/-- What stands between braces is the body one level deeper. -/
theorem Options.eq_of_braced {o : Options} {text body : String} (h : o.braced text = .ok body) :
    body = "\x7b" ++ indent o.indentWidth text ++ "\x7d" := by
  unfold braced at h
  split at h
  · next nested hnested =>
    cases h
    rw [eq_indent_of_nested? hnested]
  · cases h

/-- The word that starts a type definition. -/
def TypeForm.keyword : TypeForm → String
  | classType => "class"
  | interfaceType => "interface"

/-- The modifiers of a callable: free functions are static members of their
holder. -/
def CallableForm.modifiers : CallableForm → String
  | free => "public static"
  | member => "public"

namespace Tree

/-! ## Pieces without statements inside -/

/-- A typed binding: `T name`, or `T name = value`. -/
def bindingText (t : Tree) (o : Options) (type : NodeId) (name : Name) (value : Option NodeId) :
    Rendered String := do
  let typeText ← t.typeText o.namer type
  match value with
  | some value =>
    let valueText ← t.expr o value
    return typeText ++ " " ++ o.namer.name name ++ " = " ++ valueText
  | none => return typeText ++ " " ++ o.namer.name name

/-- The left side of an assignment: a variable by its name, or a member of an
expression. -/
def targetText (t : Tree) (o : Options) (id : NodeId) : Rendered String :=
  match t.kind? id with
  | none => .error (.outside id)
  | some (.var name _) => .ok (o.namer.name name)
  | some (.attr receiver member) => do
    let text ← t.expr o receiver
    return "(" ++ text ++ ")." ++ member.text
  | some other => .error (t.unhandled id other .assignmentTarget)

/-- The return type of a callable, with a blank after it. -/
def returnText (t : Tree) (o : Options) (returnType : Option NodeId) : Rendered String :=
  match returnType with
  | some type => do
    let text ← t.typeText o.namer type
    return text ++ " "
  | none => .ok ""

/-! ## Statements -/

/-- A declaration or a statement. -/
def stmtText (t : Tree) (o : Options) (id : NodeId) : Rendered String :=
  match hk : t.kind? id with
  | none => .error (.outside id)
  | some (.typeDef form name parameters definitions) => do
    let params ← collect parameters fun parameter _ => t.stmtText o parameter
    let members ← collect definitions fun definition _ => t.stmtText o definition
    let generics := if params.isEmpty then "" else "<" ++ ", ".intercalate params ++ ">"
    let body ← o.braced ("\n".intercalate (members.filter fun text => !text.isEmpty))
    return "public " ++ form.keyword ++ " " ++ o.namer.name name ++ generics ++ " " ++ body
  | some (.typeParam name) => .ok (o.namer.name name)
  | some (.callable form name returnType params body) => do
    let returns ← t.returnText o returnType
    let texts ← collect params fun param _ => t.stmtText o param
    let tail ← (match body with
      | some block => do
        let text ← t.stmtText o block
        return " " ++ (← o.braced text)
      | none => .ok ";" : Rendered String)
    return form.modifiers ++ " " ++ returns ++ o.namer.name name ++ "(" ++
      ", ".intercalate texts ++ ")" ++ tail
  | some (.macroDef ..) => .ok ""
  | some (.binding .plain type name value) => t.bindingText o type name value
  | some (.binding .field type name value) => do
    let text ← t.bindingText o type name value
    return text ++ ";"
  | some (.block statements) => do
    let texts ← collect statements fun statement _ => t.stmtText o statement
    return "\n".intercalate texts
  | some (.localBinding declaration) => do
    let text ← t.stmtText o declaration
    return text ++ ";"
  | some (.ret none) => .ok "return;"
  | some (.ret (some value)) => do
    let text ← t.expr o value
    return "return " ++ text ++ ";"
  | some (.exprStmt value) => do
    let text ← t.expr o value
    return text ++ ";"
  | some (.assign target value) => do
    let left ← t.targetText o target
    let right ← t.expr o value
    return left ++ " = " ++ right ++ ";"
  | some (.cond predicate consequence alternative) => do
    let test ← t.expr o predicate
    let text ← t.stmtText o consequence
    let positive ← o.braced text
    let negative ← (match alternative with
      | some block => do
        let text ← t.stmtText o block
        return " else " ++ (← o.braced text)
      | none => .ok "" : Rendered String)
    return "if (" ++ test ++ ") " ++ positive ++ negative
  | some other => .error (t.unhandled id other .statement)
termination_by t.room id
decreasing_by
  all_goals exact room_lt_of_kind? hk (by simp [Kind.children, *])

end Tree

end Emitter
