import Emitter.Proofs.Project.Files
import Emitter.Proofs.Render.Diagnosis
import Emitter.Proofs.Render.Equation
import Emitter.Proofs.Render.Rule
import Emitter.Proofs.Text.Bracket

/-!
# Generated files are well bracketed

* A name is written as it stands or as a table says, so balanced names and replacements give
  balanced words (`Namer.Bracketed`).
* The rules of expressions put brackets around balanced texts or write these side by side.  The
  scope of an expansion holds texts that were rendered before it, so inside a macro body the
  replacements are balanced again (`balanced_expansionScope`).
* Statements and the two kinds of files follow, kind by kind.

The main statement is `balanced_of_project`.
-/

namespace Emitter

/-! ## Names -/

/-- The texts that a kind carries: names, segments of types and literals. -/
def Kind.texts : Kind → List String
  | package name _ | typeDef _ name _ _ | primitive name | typeParam name
  | callable _ name _ _ _ | macroDef _ name _ _ | binding _ _ name _ | var name _ => [name.text]
  | typeRef path _ => path.map (·.text)
  | attr _ member => [member.text]
  | literal _ text => [text]
  | root _ | block _ | localBinding _ | ret _ | exprStmt _ | assign .. | cond .. | call ..
  | list _ | native _ => []

/-- Every text that a tree carries is balanced. -/
def Tree.Bracketed (t : Tree) : Prop := ∀ node ∈ t.nodes, ∀ text ∈ node.kind.texts, Balanced text

instance (t : Tree) : Decidable t.Bracketed :=
  inferInstanceAs (Decidable (∀ node ∈ t.nodes, ∀ text ∈ node.kind.texts, Balanced text))

theorem Tree.Bracketed.of_kind? {t : Tree} (ht : t.Bracketed) {id : NodeId} {kind : Kind}
    (hk : t.kind? id = some kind) : ∀ text ∈ kind.texts, Balanced text := by
  obtain ⟨node, hn, rfl⟩ := kind?_eq_some_iff.1 hk
  exact ht node (Array.mem_of_getElem? hn)

/-- The texts that the options bring into files are balanced. -/
structure Options.Bracketed (o : Options) : Prop where
  holderType : Balanced o.holderType
  builtins : ∀ entry ∈ o.builtins.entries, Balanced entry.2

/-- Every replacement that a namer makes is balanced. -/
structure Namer.Bracketed (namer : Namer) : Prop where
  scope : ∀ entry ∈ namer.scope.entries, Balanced entry.2
  builtins : ∀ entry ∈ namer.builtins.entries, Balanced entry.2

theorem Namer.Bracketed.name {namer : Namer} (h : namer.Bracketed) {name : Name}
    (hname : Balanced name.text) : Balanced (namer.name name) := by
  have hfound : ∀ {table : Substitutions} {text : String},
      (∀ entry ∈ table.entries, Balanced entry.2) → table.find? name.text = some text →
        Balanced text := by
    intro table text htable hfind
    obtain ⟨entry, hentry, _, rfl⟩ := Table.exists_mem_of_find? hfind
    exact htable entry hentry
  unfold Namer.name write lookup
  cases hscope : namer.scope.find? name.text with
  | some text => exact hfound h.scope hscope
  | none =>
    cases hbuiltin : namer.builtins.find? name.text with
    | some text => exact hfound h.builtins hbuiltin
    | none => exact hname

theorem Options.Bracketed.scoped {o : Options} (h : o.Bracketed) {scope : Substitutions}
    (hscope : ∀ entry ∈ scope.entries, Balanced entry.2) : (o.scoped scope).Bracketed :=
  ⟨hscope, h.builtins⟩

theorem Options.Bracketed.namer {o : Options} (h : o.Bracketed) : o.namer.Bracketed :=
  have hempty : ∀ entry ∈ (Table.empty : Substitutions).entries, Balanced entry.2 :=
    fun _ hentry => nomatch hentry
  h.scoped hempty

namespace Tree

variable {t : Tree} {o : Options}

/-- The name of the packages around a node is balanced. -/
theorem balanced_package {namer : Namer} {id : NodeId} {package : String} (ht : t.Bracketed)
    (hnamer : namer.Bracketed) (h : namer.package t id = some package) : Balanced package := by
  have hsegment : ∀ segment ∈ namer.enclosing t id, Balanced segment := by
    intro segment hsegment
    obtain ⟨node, _, hnode⟩ := List.mem_filterMap.1 hsegment
    split at hnode
    · next name definitions hk =>
      cases hnode
      exact hnamer.name (ht.of_kind? hk _ List.mem_cons_self)
    · cases hnode
  unfold Namer.package at h
  split at h
  · cases h
  · cases h
    refine Balanced.intercalate (by decide) fun segment hmem => ?_
    exact hsegment segment (List.mem_reverse.1 hmem)

theorem balanced_holderAccess {qualifier : Option String} {member : String}
    (hholder : Balanced o.holderType) (hqualifier : ∀ text, qualifier = some text → Balanced text)
    (hmember : Balanced member) : Balanced (holderAccess o qualifier member) := by
  have hdot : Balanced "." := by decide
  cases qualifier with
  | none => exact (hholder.append hdot).append hmember
  | some text =>
    exact ((((hqualifier text rfl).append hdot).append hholder).append hdot).append hmember

/-- Texts are balanced that go with the members of a list one by one. -/
theorem balanced_of_forall₂ {α : Type} {R : α → String → Prop} {xs : List α} {texts : List String}
    (h : List.Forall₂ R xs texts) (hR : ∀ x ∈ xs, ∀ text, R x text → Balanced text) :
    ∀ text ∈ texts, Balanced text := by
  intro text htext
  obtain ⟨x, hx, hxt⟩ := exists_partner h.flip htext
  exact hR x hx text hxt

theorem balanced_of_collect {xs : List NodeId} {texts : List String}
    {render : (x : NodeId) → x ∈ xs → Rendered String} (h : collect xs render = .ok texts)
    (hrender : ∀ x hx text, render x hx = .ok text → Balanced text) :
    ∀ text ∈ texts, Balanced text :=
  balanced_of_forall₂ (forall₂_of_collect_eq_ok h) fun x _ text ⟨hx, htext⟩ =>
    hrender x hx text htext

/-! ## Expressions -/

theorem balanced_typeText (ht : t.Bracketed) {namer : Namer} (hnamer : namer.Bracketed)
    {id : NodeId} {text : String} (h : t.typeText namer id = .ok text) : Balanced text := by
  induction id using induction_below (t := t) generalizing text with
  | step id ih =>
    cases hk : t.kind? id with
    | none =>
      rw [typeText_outside hk] at h
      cases h
    | some kind =>
      cases kind with
      | typeRef path parameters =>
        rw [typeText_typeRef hk] at h
        obtain ⟨args, hargs, he⟩ := bind_eq_ok_iff.1 h
        cases he
        have hpath : Balanced (".".intercalate (path.map namer.name)) := by
          refine Balanced.intercalate (by decide) ?_
          intro segment hsegment
          obtain ⟨name, hname, rfl⟩ := List.mem_map.1 hsegment
          exact hnamer.name (ht.of_kind? hk _ (List.mem_map_of_mem hname))
        have hall : ∀ arg ∈ args, Balanced arg :=
          balanced_of_collect hargs fun parameter hp arg harg => ih _ parameter hk hp harg
        split
        · exact hpath
        · have hinner : Balanced (",".intercalate args) := Balanced.intercalate (by decide) hall
          exact ((hpath.append (by decide)).append hinner).append (by decide)
      | _ =>
        rw [typeText_notType hk rfl] at h
        cases h

theorem balanced_varText (ht : t.Bracketed) (ho : o.Bracketed) {namer : Namer}
    (hnamer : namer.Bracketed) {id : NodeId} {name : Name} {definition : Option NodeId}
    {text : String} (hname : Balanced name.text)
    (h : t.varText o namer id name definition = .ok text) : Balanced text := by
  unfold varText at h
  split at h
  · cases h
  · split at h
    · cases h
    · split at h
      · cases h
        exact hnamer.name hname
      · cases h
        exact ho.namer.name hname
      · next target _ _ _ _ =>
        cases h
        refine balanced_holderAccess ho.holderType ?_ (ho.namer.name hname)
        exact fun package hpackage => balanced_package ht ho.namer hpackage
      · cases h

/-- The scope of an expansion holds the receiver and the arguments, and nothing else. -/
theorem balanced_expansionScope {receiver : Option String} {params : List NodeId}
    {args : List String} {scope : Substitutions}
    (hreceiver : ∀ text, receiver = some text → Balanced text)
    (hargs : ∀ arg ∈ args, Balanced arg)
    (h : t.expansionScope o receiver params args = .ok scope) :
    ∀ entry ∈ scope.entries, Balanced entry.2 := by
  obtain ⟨names, _, he⟩ := bind_eq_ok_iff.1 h
  cases he
  intro entry hentry
  obtain ⟨before, last, after, hsplit, _, hlast, _⟩ := Table.exists_last_of_mem_ofList hentry
  have hmem : last ∈ (receiver.map fun text => (o.selfName, text)).toList ++ names.zip args := by
    rw [hsplit]
    simp
  rw [← hlast]
  rcases List.mem_append.1 hmem with hself | harg
  · rw [Option.mem_toList, Option.map_eq_some_iff] at hself
    obtain ⟨text, htext, rfl⟩ := hself
    exact hreceiver text htext
  · exact hargs last.2 (List.of_mem_zip harg).2

/-- An expression is balanced under every namer whose replacements are. -/
theorem balanced_exprText (ht : t.Bracketed) (ho : o.Bracketed) {namer : Namer}
    (hnamer : namer.Bracketed) {expanding : List NodeId} {id : NodeId} {text : String}
    (h : t.exprText o namer expanding id = .ok text) : Balanced text := by
  -- The namer changes on the way into a macro body, so it is part of what is carried.
  have hrun := exprText_induction (t := t) (o := o)
    (motive := fun frame text => frame.namer.Bracketed → Balanced text) ?_ h
  · exact hrun hnamer
  · intro frame text hrule hnamer
    have hargs : ∀ {xs : List NodeId} {texts : List String},
        List.Forall₂ (fun x text => (frame.visit x).namer.Bracketed → Balanced text) xs texts →
        Balanced (", ".intercalate texts) := by
      intro xs texts hall
      refine Balanced.intercalate (by decide) ?_
      exact balanced_of_forall₂ hall fun _ _ _ htext => htext hnamer
    cases hrule with
    | literal hk => exact ht.of_kind? hk _ List.mem_cons_self
    | list hk hall => exact Balanced.insert (by decide) (hargs hall)
    | native hk hall =>
      exact Balanced.join (balanced_of_forall₂ hall fun _ _ _ htext => htext hnamer)
    | type hk htext => exact balanced_typeText ht hnamer htext
    | var hk htext =>
      exact balanced_varText ht ho hnamer (ht.of_kind? hk _ List.mem_cons_self) htext
    | member hk hres hd hkind hinner =>
      have hmember := ht.of_kind? hk _ List.mem_cons_self
      exact (Balanced.insert (by decide) (hinner hnamer)).append hmember
    | packaged hk hres hd hmember hkind hinner =>
      have hname := ht.of_kind? hk _ List.mem_cons_self
      split
      · refine balanced_holderAccess ho.holderType ?_ hname
        rintro _ ⟨⟩
        exact hinner hnamer
      · exact ((hinner hnamer).append (by decide)).append hname
    | construct hk hres hd hkind hhead hall =>
      exact (Balanced.append (by decide) (hhead hnamer)).applied (hargs hall)
    | function hk hres hd hkind hhead hall => exact (hhead hnamer).applied (hargs hall)
    | method hk hres hd hr hinner hall =>
      have hname := ht.of_kind? hd _ List.mem_cons_self
      exact ((Balanced.insert (by decide) (hinner hnamer)).append hname).applied (hargs hall)
    | @expansion _ _ _ _ _ form _ _ _ _ _ hk hres hd hfree hmember hnew hall hlength hscope hbody =>
      refine hbody (ho.scoped (balanced_expansionScope ?_ ?_ hscope))
      · intro inner hinner
        cases form with
        | free => cases (hfree rfl).symm.trans hinner
        | member =>
          obtain ⟨receiver, text, _, htext, he⟩ := hmember rfl
          cases he.symm.trans hinner
          exact htext hnamer
      · exact balanced_of_forall₂ hall fun _ _ _ htext => htext hnamer

theorem balanced_expr (ht : t.Bracketed) (ho : o.Bracketed) {id : NodeId} {text : String}
    (h : t.expr o id = .ok text) : Balanced text := balanced_exprText ht ho ho.namer h

/-! ## Statements -/

theorem balanced_braced {text body : String} (h : Balanced text)
    (hbody : o.braced text = .ok body) :
    Balanced body := by
  rw [Options.eq_of_braced hbody]
  exact Balanced.insert (by decide) (h.indent _)

theorem balanced_bindingText (ht : t.Bracketed) (ho : o.Bracketed) {type : NodeId} {name : Name}
    {value : Option NodeId} {text : String} (hname : Balanced name.text)
    (h : t.bindingText o type name value = .ok text) : Balanced text := by
  obtain ⟨typeText, htype, h⟩ := bind_eq_ok_iff.1 h
  have htype := balanced_typeText ht ho.namer htype
  have hfront : Balanced (typeText ++ " " ++ o.namer.name name) :=
    (htype.append (by decide)).append (ho.namer.name hname)
  cases value with
  | none =>
    cases h
    exact hfront
  | some value =>
    obtain ⟨valueText, hvalue, he⟩ := bind_eq_ok_iff.1 h
    cases he
    exact (hfront.append (by decide)).append (balanced_expr ht ho hvalue)

theorem balanced_targetText (ht : t.Bracketed) (ho : o.Bracketed) {id : NodeId} {text : String}
    (h : t.targetText o id = .ok text) : Balanced text := by
  unfold targetText at h
  split at h
  · cases h
  · next name definition hk =>
    cases h
    exact ho.namer.name (ht.of_kind? hk _ List.mem_cons_self)
  · next receiver member hk =>
    obtain ⟨inner, hinner, he⟩ := bind_eq_ok_iff.1 h
    cases he
    have hmember : Balanced member.text := ht.of_kind? hk _ List.mem_cons_self
    exact (Balanced.insert (by decide) (balanced_expr ht ho hinner)).append hmember
  · cases h

theorem balanced_returnText (ht : t.Bracketed) (ho : o.Bracketed) {returnType : Option NodeId}
    {text : String} (h : t.returnText o returnType = .ok text) : Balanced text := by
  cases returnType with
  | none =>
    cases h
    exact .empty
  | some type =>
    obtain ⟨inner, hinner, he⟩ := bind_eq_ok_iff.1 h
    cases he
    exact (balanced_typeText ht ho.namer hinner).append (by decide)

/-- A body between braces after the text that leads to it. -/
theorem balanced_body {id : NodeId} {front text : String} (hfront : Balanced front)
    (hbody : ∀ inner, t.stmtText o id = .ok inner → Balanced inner)
    (h : (do
      let inner ← t.stmtText o id
      return front ++ (← o.braced inner)) = .ok text) : Balanced text := by
  obtain ⟨inner, hinner, h⟩ := bind_eq_ok_iff.1 h
  obtain ⟨body, hbraced, he⟩ := bind_eq_ok_iff.1 h
  cases he
  exact hfront.append (balanced_braced (hbody inner hinner) hbraced)

section Forms

/-! The forms with a body, each balanced when the nodes below are. -/

variable {id : NodeId} {text : String}

theorem balanced_typeDef (ht : t.Bracketed) (ho : o.Bracketed) {form : TypeForm} {name : Name}
    {parameters definitions : List NodeId}
    (hk : t.kind? id = some (.typeDef form name parameters definitions))
    (hchild : ∀ child ∈ parameters ++ definitions, ∀ inner, t.stmtText o child = .ok inner →
      Balanced inner)
    (h : t.stmtText o id = .ok text) : Balanced text := by
  rw [stmtText_of_kind? hk] at h
  obtain ⟨params, hparams, h⟩ := bind_eq_ok_iff.1 h
  obtain ⟨members, hmembers, h⟩ := bind_eq_ok_iff.1 h
  obtain ⟨body, hbody, he⟩ := bind_eq_ok_iff.1 h
  cases he
  have hparams := balanced_of_collect hparams fun p hp => hchild p (List.mem_append_left _ hp)
  have hmembers := balanced_of_collect hmembers fun d hd => hchild d (List.mem_append_right _ hd)
  have hbody := balanced_braced (Balanced.intercalate (by decide)
    fun text htext => hmembers text (List.mem_filter.1 htext).1) hbody
  have hgenerics : Balanced
      (if params.isEmpty then "" else "<" ++ ", ".intercalate params ++ ">") := by
    split
    · exact .empty
    · exact Balanced.insert (by decide) (Balanced.intercalate (by decide) hparams)
  have hfront : Balanced ("public " ++ form.keyword ++ " ") := by cases form <;> decide
  have hname := ho.namer.name (ht.of_kind? hk _ List.mem_cons_self)
  exact (((hfront.append hname).append hgenerics).append (by decide)).append hbody

theorem balanced_callable (ht : t.Bracketed) (ho : o.Bracketed) {form : CallableForm}
    {name : Name} {returnType : Option NodeId} {params : List NodeId} {body : Option NodeId}
    (hk : t.kind? id = some (.callable form name returnType params body))
    (hparam : ∀ child ∈ params, ∀ inner, t.stmtText o child = .ok inner → Balanced inner)
    (hblock : ∀ child ∈ body, ∀ inner, t.stmtText o child = .ok inner → Balanced inner)
    (h : t.stmtText o id = .ok text) : Balanced text := by
  rw [stmtText_of_kind? hk] at h
  obtain ⟨returns, hreturns, h⟩ := bind_eq_ok_iff.1 h
  obtain ⟨texts, htexts, h⟩ := bind_eq_ok_iff.1 h
  obtain ⟨tail, htail, he⟩ := bind_eq_ok_iff.1 h
  cases he
  have hreturns := balanced_returnText ht ho hreturns
  have htexts := balanced_of_collect htexts hparam
  have htail : Balanced tail := by
    cases body with
    | none =>
      cases htail
      decide
    | some block => exact balanced_body (by decide) (hblock block rfl) htail
  have hfront : Balanced (form.modifiers ++ " ") := by cases form <;> decide
  have hname := ho.namer.name (ht.of_kind? hk _ List.mem_cons_self)
  have hhead := (hfront.append hreturns).append hname
  exact (hhead.applied (Balanced.intercalate (by decide) htexts)).append htail

theorem balanced_cond (ht : t.Bracketed) (ho : o.Bracketed) {predicate consequence : NodeId}
    {alternative : Option NodeId}
    (hk : t.kind? id = some (.cond predicate consequence alternative))
    (hthen : ∀ inner, t.stmtText o consequence = .ok inner → Balanced inner)
    (helse : ∀ child ∈ alternative, ∀ inner, t.stmtText o child = .ok inner → Balanced inner)
    (h : t.stmtText o id = .ok text) : Balanced text := by
  rw [stmtText_of_kind? hk] at h
  obtain ⟨test, htest, h⟩ := bind_eq_ok_iff.1 h
  obtain ⟨inner, hinner, h⟩ := bind_eq_ok_iff.1 h
  obtain ⟨positive, hpositive, h⟩ := bind_eq_ok_iff.1 h
  obtain ⟨negative, hnegative, he⟩ := bind_eq_ok_iff.1 h
  cases he
  have hpositive := balanced_braced (hthen inner hinner) hpositive
  have hnegative : Balanced negative := by
    cases alternative with
    | none =>
      cases hnegative
      exact .empty
    | some block => exact balanced_body (by decide) (helse block rfl) hnegative
  have hhead : Balanced ("if (" ++ test ++ ") ") :=
    Balanced.insert (by decide) (balanced_expr ht ho htest)
  exact (hhead.append hpositive).append hnegative

end Forms

/-- A statement is balanced. -/
theorem balanced_stmtText (ht : t.Bracketed) (ho : o.Bracketed) {id : NodeId} {text : String}
    (h : t.stmtText o id = .ok text) : Balanced text := by
  induction id using induction_below (t := t) generalizing text with
  | step id ih =>
    cases hk : t.kind? id with
    | none =>
      rw [stmtText_of_outside hk] at h
      cases h
    | some kind =>
      have hchild : ∀ child ∈ kind.children, ∀ inner, t.stmtText o child = .ok inner →
          Balanced inner := fun child hc inner hinner => ih _ child hk hc hinner
      have hown : ∀ text ∈ kind.texts, Balanced text := ht.of_kind? hk
      have hequation := h
      rw [stmtText_of_kind? hk] at hequation
      cases kind with
      | typeDef form name parameters definitions => exact balanced_typeDef ht ho hk hchild h
      | typeParam name =>
        cases hequation
        exact ho.namer.name (hown _ List.mem_cons_self)
      | callable form name returnType params body =>
        exact balanced_callable ht ho hk (fun p hp => hchild p (by simp [Kind.children, hp]))
          (fun block hblock => hchild block (by simp [Kind.children, Option.mem_def.1 hblock])) h
      | macroDef =>
        cases hequation
        exact .empty
      | binding form type name value =>
        have hname : Balanced name.text := hown _ List.mem_cons_self
        cases form with
        | plain => exact balanced_bindingText ht ho hname hequation
        | field =>
          obtain ⟨inner, hinner, he⟩ := bind_eq_ok_iff.1 hequation
          cases he
          exact (balanced_bindingText ht ho hname hinner).append (by decide)
      | block statements =>
        obtain ⟨texts, htexts, he⟩ := bind_eq_ok_iff.1 hequation
        cases he
        exact Balanced.intercalate (by decide) (balanced_of_collect htexts hchild)
      | localBinding declaration =>
        obtain ⟨inner, hinner, he⟩ := bind_eq_ok_iff.1 hequation
        cases he
        exact (hchild declaration List.mem_cons_self inner hinner).append (by decide)
      | ret value =>
        cases value with
        | none =>
          cases hequation
          decide
        | some value =>
          obtain ⟨inner, hinner, he⟩ := bind_eq_ok_iff.1 hequation
          cases he
          exact Balanced.insert (by decide) (balanced_expr ht ho hinner)
      | exprStmt value =>
        obtain ⟨inner, hinner, he⟩ := bind_eq_ok_iff.1 hequation
        cases he
        exact (balanced_expr ht ho hinner).append (by decide)
      | assign target value =>
        obtain ⟨left, hleft, hrest⟩ := bind_eq_ok_iff.1 hequation
        obtain ⟨right, hright, he⟩ := bind_eq_ok_iff.1 hrest
        cases he
        have hfront : Balanced (left ++ " = ") :=
          (balanced_targetText ht ho hleft).append (by decide)
        exact (hfront.append (balanced_expr ht ho hright)).append (by decide)
      | cond predicate consequence alternative =>
        exact balanced_cond ht ho hk (hchild consequence (by simp [Kind.children]))
          (fun block hblock => hchild block (by simp [Kind.children, Option.mem_def.1 hblock])) h
      | _ => cases hequation

/-! ## Files -/

theorem balanced_withPackage {package : Option String} {body : String}
    (hpackage : ∀ text, package = some text → Balanced text) (h : Balanced body) :
    Balanced (withPackage package body) := by
  cases package with
  | none => exact h
  | some text => exact (Balanced.insert (by decide) (hpackage text rfl)).append h

theorem balanced_entryPoint {text : String} (h : o.entryPoint = .ok text) : Balanced text := by
  obtain ⟨body, hbody, he⟩ := bind_eq_ok_iff.1 h
  cases he
  exact Balanced.append (by decide) (balanced_braced (by decide) hbody)

theorem balanced_typeFile (ht : t.Bracketed) (ho : o.Bracketed) {id : NodeId}
    {file : Path × String} (h : t.IsTypeFile o id file) : Balanced file.2 := by
  obtain ⟨form, name, parameters, definitions, text, _, htext, rfl⟩ := h
  refine balanced_withPackage (fun package hpackage => ?_) (balanced_stmtText ht ho htext)
  exact balanced_package ht ho.namer hpackage

theorem balanced_holderFile (ht : t.Bracketed) (ho : o.Bracketed) {functions : List NodeId}
    {package : Option String} {file : Path × String}
    (hpackage : ∀ text, package = some text → Balanced text)
    (h : t.IsHolderFile o functions package file) : Balanced file.2 := by
  obtain ⟨members, entry, body, hmembers, hentry, hbody, rfl⟩ := h
  have hmembers : ∀ text ∈ members, Balanced text :=
    balanced_of_forall₂ hmembers fun _ _ _ htext => balanced_stmtText ht ho htext
  have hentry : ∀ text ∈ entry, Balanced text := by
    by_cases hmain : ∃ id ∈ functions.filter fun id => o.namer.package t id = package,
        t.isMain id = true
    · obtain ⟨text, htext, rfl⟩ := hentry.1 hmain
      exact List.forall_mem_singleton.2 (balanced_entryPoint htext)
    · rw [hentry.2 fun id hid => Bool.eq_false_iff.2 fun h => hmain ⟨id, hid, h⟩]
      exact List.forall_mem_nil _
  have hall : Balanced ("\n".intercalate (members ++ entry)) := by
    refine Balanced.intercalate (by decide) ?_
    intro text htext
    exact (List.mem_append.1 htext).elim (hmembers text) (hentry text)
  refine balanced_withPackage hpackage ?_
  have hhead : Balanced ("public class " ++ o.holderType ++ " ") :=
    Balanced.insert (by decide) ho.holderType
  exact hhead.append (balanced_braced hall hbody)

/-- Every file of a tree is balanced, when the texts of the tree and of the options are. -/
theorem balanced_of_project (t : Tree) (o : Options) (ht : t.Bracketed) (ho : o.Bracketed)
    (files : Files) (h : t.project o = .ok files) : ∀ file ∈ files.entries, Balanced file.2 := by
  intro file hfile
  obtain ⟨typeFiles, holderFiles, hcovers, rfl⟩ := exists_covers_of_project h
  obtain ⟨before, last, after, hsplit, _, htext, _⟩ := Table.exists_last_of_mem_ofList hfile
  have hmem : last ∈ typeFiles ++ holderFiles := by
    rw [hsplit]
    simp
  rw [← htext]
  rcases List.mem_append.1 hmem with htype | hholder
  · obtain ⟨id, _, hid⟩ := hcovers.type_of_file last htype
    exact balanced_typeFile ht ho hid
  · obtain ⟨id, _, _, hid⟩ := hcovers.function_of_file last hholder
    refine balanced_holderFile ht ho ?_ hid
    exact fun package hpackage => balanced_package ht ho.namer hpackage

/-- A class with a field whose value is the argument of a macro, a list with brackets of its own
in it. -/
def bracketedValue : Tree where
  nodes := #[
    { kind := .root [⟨1⟩, ⟨5⟩] },
    { kind := .macroDef .free { text := "same" } [⟨2⟩] ⟨4⟩, parent := some ⟨0⟩ },
    { kind := .binding .plain ⟨3⟩ { text := "x" } none, parent := some ⟨1⟩ },
    { kind := .typeRef [{ text := "int" }] [], parent := some ⟨2⟩ },
    { kind := .var { text := "x" } (some ⟨2⟩), parent := some ⟨1⟩ },
    { kind := .typeDef .classType { text := "C" } [] [⟨6⟩], parent := some ⟨0⟩ },
    { kind := .binding .field ⟨7⟩ { text := "f" } (some ⟨8⟩), parent := some ⟨5⟩ },
    { kind := .typeRef [{ text := "List" }] [], parent := some ⟨6⟩ },
    { kind := .call ⟨9⟩ [⟨10⟩], parent := some ⟨6⟩ },
    { kind := .var { text := "same" } (some ⟨1⟩), parent := some ⟨8⟩, resolved := some ⟨1⟩ },
    { kind := .list [⟨11⟩], parent := some ⟨8⟩ },
    { kind := .literal .fixed "a[(0)]", parent := some ⟨10⟩ }]
  root := ⟨0⟩
  wellFormed := wellFormed_of_ofParts (by decide)

theorem balanced_bracketedValue :
    bracketedValue.Bracketed ∧ Options.Bracketed {} ∧
    ∃ files, bracketedValue.project {} = .ok files ∧ files.keys = [⟨"C.java"⟩] ∧
      ∀ file ∈ files.entries, Balanced file.2 := by
  have ht : bracketedValue.Bracketed := by decide
  have ho : Options.Bracketed {} := ⟨by decide, by decide⟩
  have htop : bracketedValue.topLevel = .ok [.type ⟨5⟩] := eq_ok_of_toOption (by decide +kernel)
  have hpackage : (Options.namer {}).package bracketedValue ⟨5⟩ = none := by decide +kernel
  have hfield : (bracketedValue.stmtText {} ⟨6⟩).toOption.isSome = true := by cbv
  obtain ⟨field, hfield⟩ := Option.isSome_iff_exists.1 hfield
  obtain ⟨body, hproject⟩ :=
    exists_project_of_class htop rfl hpackage (by decide) (.cons (eq_ok_of_toOption hfield) .nil)
  exact ⟨ht, ho, _, hproject, rfl, balanced_of_project bracketedValue {} ht ho _ hproject⟩

end Tree

end Emitter
