import Emitter.Proofs.Render.Equation

/-!
# Declared identifiers

A declaration is a text with an identifier in it.  `Tree.declarationFrame` is the text around
the identifier: the modifiers, the keyword or the type before it, and the parameters, the value
or the body after it.  No part of the frame looks at the name of the declaration.

Every declaration writes its name under the built-in table (`stmtText_eq_frame`), and with the
frame known there is no other way to read an identifier out of its text
(`DeclaredAs.eq_name`).
-/

namespace Emitter

/-- Whether a kind declares an identifier of the output by itself. -/
def Kind.isDeclaration : Kind → Bool
  | typeDef .. | callable .. | binding .. => true
  | _ => false

namespace Tree

variable {t : Tree} {o : Options} {id : NodeId}

/-- The text before and after the identifier of a declaration. -/
def declarationFrame (t : Tree) (o : Options) (id : NodeId) : Rendered (String × String) :=
  match t.kind? id with
  | none => .error (.outside id)
  | some (.typeDef form _ parameters definitions) => do
    let params ← collect parameters fun parameter _ => t.stmtText o parameter
    let members ← collect definitions fun definition _ => t.stmtText o definition
    let generics := if params.isEmpty then "" else "<" ++ ", ".intercalate params ++ ">"
    let body ← o.braced ("\n".intercalate (members.filter fun text => !text.isEmpty))
    return ("public " ++ form.keyword ++ " ", generics ++ " " ++ body)
  | some (.callable form _ returnType params body) => do
    let returns ← t.returnText o returnType
    let texts ← collect params fun param _ => t.stmtText o param
    let tail ← (match body with
      | some block => do
        let text ← t.stmtText o block
        return " " ++ (← o.braced text)
      | none => .ok ";" : Rendered String)
    return (form.modifiers ++ " " ++ returns, "(" ++ ", ".intercalate texts ++ ")" ++ tail)
  | some (.binding form type _ value) => do
    let typeText ← t.typeText o.namer type
    let tail ← (match value with
      | some value => do
        let text ← t.expr o value
        return " = " ++ text
      | none => return "" : Rendered String)
    return (typeText ++ " ", tail ++ match form with
      | .plain => ""
      | .field => ";")
  | some other => .error (t.unhandled id other .statement)

/-- The declaration of a node comes out with an identifier between the two parts of its
frame. -/
def DeclaredAs (t : Tree) (o : Options) (id : NodeId) (identifier : String) : Prop :=
  ∃ front back, t.declarationFrame o id = .ok (front, back) ∧
    t.stmtText o id = .ok (front ++ identifier ++ back)

theorem stmtText_eq_frame {kind : Kind} {name : Name} (hk : t.kind? id = some kind)
    (hdeclares : kind.isDeclaration = true) (hname : kind.name? = some name) :
    t.stmtText o id = (t.declarationFrame o id).map fun frame =>
      frame.1 ++ o.namer.name name ++ frame.2 := by
  rw [stmtText_of_kind? hk, declarationFrame, hk]
  cases kind with
  | typeDef form =>
    cases hname
    simp only [map_of_bind, map_of_pure, String.append_assoc]
  | callable form _ returnType params body =>
    cases hname
    cases body with
    | none | some => simp only [map_of_bind, map_of_pure, String.append_assoc]
  | binding form type _ value =>
    cases hname
    cases value with
    | none | some =>
      cases form with
      | plain | field =>
        simp only [bindingText, map_of_bind, map_of_pure, bind_assoc, pure_bind,
          String.append_assoc, String.append_empty, String.empty_append]
  | _ => cases hdeclares

/-- What has a frame is a declaration. -/
theorem isDeclaration_of_frame {frame : String × String}
    (h : t.declarationFrame o id = .ok frame) :
    ∃ kind, t.kind? id = some kind ∧ kind.isDeclaration = true := by
  cases hk : t.kind? id with
  | none =>
    rw [declarationFrame, hk] at h
    cases h
  | some kind =>
    refine ⟨kind, rfl, ?_⟩
    cases kind with
    | typeDef | callable | binding => rfl
    | _ =>
      rw [declarationFrame, hk] at h
      cases h

/-- A declaration that comes out has its frame around its written name. -/
theorem declaredAs_of_stmtText {kind : Kind} {name : Name} {text : String}
    (hk : t.kind? id = some kind) (hdeclares : kind.isDeclaration = true)
    (hname : kind.name? = some name) (htext : t.stmtText o id = .ok text) :
    t.DeclaredAs o id (o.namer.name name) := by
  have heq := stmtText_eq_frame (o := o) hk hdeclares hname
  rw [htext] at heq
  obtain ⟨⟨front, back⟩, hframe, hwhole⟩ := map_eq_ok_iff.1 heq.symm
  exact ⟨front, back, hframe, by rw [htext, ← hwhole]⟩

/-- The identifier of a declaration is its name under the built-in table. -/
theorem DeclaredAs.eq_name {identifier : String} {name : Name} (h : t.DeclaredAs o id identifier)
    (hname : (t.kind? id).bind Kind.name? = some name) : identifier = o.namer.name name := by
  obtain ⟨front, back, hframe, htext⟩ := h
  obtain ⟨kind, hk, hdeclares⟩ := isDeclaration_of_frame hframe
  rw [hk, Option.bind_some] at hname
  have heq := stmtText_eq_frame (o := o) hk hdeclares hname
  rw [htext, hframe] at heq
  have hwhole : front ++ identifier ++ back = front ++ o.namer.name name ++ back :=
    Except.ok.inj heq
  exact (String.append_right_inj front).1 ((String.append_left_inj back).1 hwhole)

end Tree

end Emitter
