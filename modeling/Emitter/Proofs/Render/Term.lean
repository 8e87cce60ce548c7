import Mathlib.Data.List.Forall2
import Emitter.Proofs.Tree.Kind
import Emitter.Render.Expr

/-!
# Terms

A `Term` is an expression that stands by itself: it holds its parts, where a node
of a tree holds their numbers.  Terms are what macro calls are inlined to.

`Term.text?` writes a term by the rules of expressions under the built-in names
alone.  It knows no macros: a call of one has no text.
-/

namespace Emitter

/-- An expression with the types that were recorded for its parts. -/
inductive Term where
  | literal (type : Option NodeId) (text : String)
  | list (type : Option NodeId) (elements : List Term)
  | native (type : Option NodeId) (parts : List Term)
  /-- One name in the path of a type. -/
  | segment (name : Name)
  | typeRef (type : Option NodeId) (path parameters : List Term)
  | var (type : Option NodeId) (name : Name) (definition : Option NodeId)
  | attr (type : Option NodeId) (receiver : Term) (member : Name)
  | call (type : Option NodeId) (callee : Term) (args : List Term)
  /-- A term in the place of a node that had a type of its own.  What is around
  sees that type, and the term keeps the one it came with. -/
  | placed (type : Option NodeId) (inner : Term)

namespace Term

/-- The type that is seen from around a term. -/
def type : Term → Option NodeId
  | literal type _ | list type _ | native type _ | typeRef type _ _ | var type _ _
  | attr type _ _ | call type _ _ | placed type _ => type
  | segment _ => none

/-- The term with another type in the place of its own. -/
def retype (type : Option NodeId) : Term → Term
  | literal _ text => literal type text
  | list _ elements => list type elements
  | native _ parts => native type parts
  | segment name => segment name
  | typeRef _ path parameters => typeRef type path parameters
  | var _ name definition => var type name definition
  | attr _ receiver member => attr type receiver member
  | call _ callee args => call type callee args
  | placed _ inner => placed type inner

/-! ## Texts -/

/-- The text of a variable that is bound to a definition. -/
def boundText? (t : Tree) (o : Options) (name : Name) (definition : NodeId) : Option String :=
  match (t.kind? definition).bind Kind.bindingSite with
  | some .declaration | some .definition => some (o.namer.name name)
  | some .function =>
    some (Tree.holderAccess o (o.namer.package t definition) (o.namer.name name))
  | none => none

/-- A member of a package. -/
def memberText? (t : Tree) (o : Options) (type : Option NodeId) (package member : String) :
    Option String :=
  match type.bind t.kind? with
  | some (.callable .free ..) => some (Tree.holderAccess o (some package) member)
  | some _ => some (package ++ "." ++ member)
  | none => none

mutual

/-- The text of a term. -/
def text? (t : Tree) (o : Options) : Term → Option String
  | literal _ text => some text
  | list _ elements => do
    let texts ← texts? t o elements
    some ("new java.util.ArrayList(java.util.Arrays.asList(new Object[]\x7b" ++
      ", ".intercalate texts ++ "\x7d))")
  | native _ parts => do
    let texts ← texts? t o parts
    some (String.join texts)
  | segment name => some (o.namer.name name)
  | typeRef _ path parameters => do
    let names ← texts? t o path
    let args ← texts? t o parameters
    some (if args.isEmpty then ".".intercalate names
      else ".".intercalate names ++ "<" ++ ",".intercalate args ++ ">")
  | var _ name definition => definition.bind (boundText? t o name)
  | attr type receiver member => do
    let text ← text? t o receiver
    match receiver.type.bind t.kind? with
    | some (.typeDef ..) | some (.primitive _) => some ("(" ++ text ++ ")." ++ member.text)
    | some (.package ..) => memberText? t o type text member.text
    | _ => none
  | call _ callee args => do
    let texts ← texts? t o args
    match callee.type.bind t.kind? with
    | some (.typeDef ..) | some (.primitive _) => do
      let text ← text? t o callee
      some ("new " ++ text ++ "(" ++ ", ".intercalate texts ++ ")")
    | some (.callable .free ..) => do
      let text ← text? t o callee
      some (text ++ "(" ++ ", ".intercalate texts ++ ")")
    | some (.callable .member name ..) =>
      match callee with
      | attr _ receiver _ => do
        let text ← text? t o receiver
        some ("(" ++ text ++ ")." ++ name.text ++ "(" ++ ", ".intercalate texts ++ ")")
      | _ => none
    | _ => none
  | placed _ inner => text? t o inner

/-- The texts of terms, if all have one. -/
def texts? (t : Tree) (o : Options) : List Term → Option (List String)
  | [] => some []
  | term :: rest => do
    let text ← text? t o term
    let texts ← texts? t o rest
    some (text :: texts)

end

theorem texts?_eq_some_iff {t : Tree} {o : Options} {terms : List Term} {texts : List String} :
    texts? t o terms = some texts ↔
      List.Forall₂ (fun term text => term.text? t o = some text) terms texts := by
  induction terms generalizing texts with
  | nil => simp [texts?, eq_comm]
  | cons term rest ih =>
    simp only [texts?, Option.bind_eq_bind, Option.bind_eq_some_iff, Option.some.injEq]
    constructor
    · rintro ⟨text, htext, others, hothers, rfl⟩
      exact .cons htext (ih.1 hothers)
    · intro h
      cases h with
      | cons htext hothers => exact ⟨_, htext, _, ih.2 hothers, rfl⟩

/-! ## Rules -/

section

variable {t : Tree} {o : Options} {id : NodeId} {kind : Kind} {term : Term} {inner : String}

theorem text?_member {type : Option NodeId} {member : Name} (htype : term.type = some id)
    (hd : t.kind? id = some kind) (hkind : kind.isObjectType = true)
    (htext : term.text? t o = some inner) :
    (attr type term member).text? t o = some ("(" ++ inner ++ ")." ++ member.text) := by
  cases kind with
  | typeDef | primitive => simp [text?, htype, htext, hd]
  | _ => cases hkind

theorem text?_packaged {type memberType : NodeId} {own : Option NodeId} {member name : Name}
    {definitions : List NodeId} (htype : term.type = some type)
    (hd : t.kind? type = some (.package name definitions)) (hown : own = some memberType)
    (hkind : t.kind? memberType = some kind) (htext : term.text? t o = some inner) :
    (attr own term member).text? t o =
      some (if kind.isFunction then Tree.holderAccess o (some inner) member.text
        else inner ++ "." ++ member.text) := by
  simp only [text?, htype, htext, hd, hown, Option.bind_eq_bind, Option.bind_some, memberText?,
    hkind]
  cases kind with
  | callable form => cases form <;> rfl
  | _ => rfl

theorem text?_construct {type : Option NodeId} {terms : List Term} {texts : List String}
    (htype : term.type = some id) (hd : t.kind? id = some kind)
    (hkind : kind.isObjectType = true) (htext : term.text? t o = some inner)
    (htexts : texts? t o terms = some texts) :
    (call type term terms).text? t o =
      some ("new " ++ inner ++ "(" ++ ", ".intercalate texts ++ ")") := by
  cases kind with
  | typeDef | primitive => simp [text?, htype, htext, htexts, hd]
  | _ => cases hkind

theorem text?_function {type : Option NodeId} {terms : List Term} {texts : List String}
    (htype : term.type = some id) (hd : t.kind? id = some kind)
    (hkind : kind.isFunction = true) (htext : term.text? t o = some inner)
    (htexts : texts? t o terms = some texts) :
    (call type term terms).text? t o = some (inner ++ "(" ++ ", ".intercalate texts ++ ")") := by
  cases kind with
  | callable form =>
    cases form with
    | free => simp [text?, htype, htext, htexts, hd]
    | member => cases hkind
  | _ => cases hkind

end

/-! ## Calls of macros -/

mutual

/-- Whether no call in a term is one of a macro. -/
def macroFree (t : Tree) : Term → Bool
  | literal .. | segment _ | var .. => true
  | list _ terms | native _ terms => allMacroFree t terms
  | typeRef _ path parameters => allMacroFree t path && allMacroFree t parameters
  | attr _ receiver _ => macroFree t receiver
  | call _ callee args =>
    !(callee.type.bind t.kind?).any Kind.isMacro && macroFree t callee && allMacroFree t args
  | placed _ inner => macroFree t inner

/-- Whether no call in any of the terms is one of a macro. -/
def allMacroFree (t : Tree) : List Term → Bool
  | [] => true
  | term :: rest => macroFree t term && allMacroFree t rest

end

mutual

/-- A term with a text calls no macro. -/
theorem macroFree_of_text? {t : Tree} {o : Options} {text : String} :
    ∀ term : Term, term.text? t o = some text → term.macroFree t = true
  | literal .., _ | segment _, _ | var .., _ => rfl
  | list _ terms, h | native _ terms, h => by
    obtain ⟨texts, htexts, _⟩ := Option.bind_eq_some_iff.1 h
    exact allMacroFree_of_texts? terms htexts
  | typeRef _ path parameters, h => by
    obtain ⟨names, hnames, h⟩ := Option.bind_eq_some_iff.1 h
    obtain ⟨args, hargs, _⟩ := Option.bind_eq_some_iff.1 h
    simp [macroFree, allMacroFree_of_texts? path hnames, allMacroFree_of_texts? parameters hargs]
  | attr _ receiver _, h => by
    obtain ⟨inner, hinner, _⟩ := Option.bind_eq_some_iff.1 h
    exact macroFree_of_text? receiver hinner
  | call _ callee args, h => by
    simp only [text?, Option.bind_eq_bind, Option.bind_eq_some_iff] at h
    obtain ⟨texts, htexts, h⟩ := h
    have hargs := allMacroFree_of_texts? args htexts
    split at h
    case h_1 hkind | h_2 hkind | h_3 hkind =>
      obtain ⟨inner, hinner, _⟩ := Option.bind_eq_some_iff.1 h
      simp [macroFree, hkind, Kind.isMacro, macroFree_of_text? callee hinner, hargs]
    case h_4 hkind =>
      split at h
      · next receiver member =>
        obtain ⟨inner, hinner, _⟩ := Option.bind_eq_some_iff.1 h
        simp [macroFree, hkind, Kind.isMacro, macroFree_of_text? receiver hinner, hargs]
      · cases h
    case h_5 => cases h
  | placed _ inner, h => macroFree_of_text? inner h

theorem allMacroFree_of_texts? {t : Tree} {o : Options} {texts : List String} :
    ∀ terms : List Term, texts? t o terms = some texts → allMacroFree t terms = true
  | [], _ => rfl
  | term :: rest, h => by
    obtain ⟨text, htext, h⟩ := Option.bind_eq_some_iff.1 h
    obtain ⟨others, hothers, _⟩ := Option.bind_eq_some_iff.1 h
    simp [allMacroFree, macroFree_of_text? term htext, allMacroFree_of_texts? rest hothers]

end

end Term

end Emitter
