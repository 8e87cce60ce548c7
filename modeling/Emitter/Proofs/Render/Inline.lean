import Mathlib
import Emitter.Proofs.Render.Rule
import Emitter.Proofs.Render.Term
import Emitter.Proofs.Table
import Emitter.Proofs.Tree.Loading

/-!
# Inlining

`Tree.inline` replaces macro calls by terms.  A call of a macro becomes the body
of the macro, in which the variables bound to declarations and the names in types
that the environment has become the inlined arguments and the inlined receiver.
No text is written on the way.

Rendering goes the other way round: it writes the arguments first and looks the
names of the body up among texts.  The two agree (`inlines_of_exprText`): what is
rendered is the text of the inlined term, under the built-in names alone.  The
invariant is `Tree.Agrees`: a scope and an environment have the same keys, and the
text under a key is the text of the term under it.  An expansion starts with a
scope and an environment that agree (`Agrees.of_expansion`), because its arguments
and its receiver were rendered and inlined in a scope and an environment that do.

A node that is replaced leaves its type behind.  What is around it goes by that
type, and the term in its place goes by the type it came with: `Term.placed`
holds both.  One type for both, as `Term.retype` has it, would write an argument
by the type of the variable that it replaces; the last section has a tree where
that makes another text.
-/

-- The names of match equations are used by the termination proofs only.
set_option linter.unusedVariables false

namespace Emitter

/-- What the names of an expansion stand for. -/
abbrev Env := Table String Term

namespace Tree

/-! ## Terms of a tree -/

/-- A macro of a tree. -/
structure MacroDef where
  id : NodeId
  form : CallableForm
  name : Name
  params : List NodeId
  body : NodeId

/-- The macro that a callee resolves to. -/
def macroOf? (t : Tree) (callee : NodeId) : Option MacroDef :=
  match t.resolved? callee with
  | none => none
  | some id =>
    match t.kind? id with
    | some (.macroDef form name params body) => some { id, form, name, params, body }
    | _ => none

theorem macroOf?_eq_some_iff {t : Tree} {callee : NodeId} {m : MacroDef} :
    t.macroOf? callee = some m ↔
      t.resolved? callee = some m.id ∧
        t.kind? m.id = some (.macroDef m.form m.name m.params m.body) := by
  obtain ⟨id, form, name, params, body⟩ := m
  unfold macroOf?
  constructor
  · intro h
    split at h
    · cases h
    · next hr =>
      split at h
      · next hk =>
        cases h
        exact ⟨hr, hk⟩
      · cases h
  · rintro ⟨hr, hk⟩
    simp only [hr, hk]

/-- The term of a variable.  One that is bound to a declaration and has a term in
the environment is replaced by it. -/
def inlineVar (t : Tree) (keep : Option NodeId → Term → Term) (env : Env) (id : NodeId)
    (name : Name) (definition : Option NodeId) : Term :=
  match (definition.bind t.kind?).bind Kind.bindingSite, env.find? name.text with
  | some .declaration, some bound => keep (t.resolved? id) bound
  | _, _ => .var (t.resolved? id) name definition

/-- The term of a name in a type. -/
def inlineSegment (env : Env) (name : Name) : Term :=
  (env.find? name.text).getD (.segment name)

/-- The environment of an expansion: the receiver under the self name, then each
parameter with its argument. -/
def expansionEnv (t : Tree) (o : Options) (receiver : Option Term) (params : List NodeId)
    (args : List Term) : Rendered Env := do
  let names ← collect params fun param _ => t.parameterName param
  return Table.ofList ((receiver.map fun term => (o.selfName, term)).toList ++ names.zip args)

/-- The term of the receiver of a macro call, where the macro has one. -/
def receiverTerm (t : Tree) (id callee : NodeId) (m : MacroDef)
    (inline : (receiver : NodeId) → t.receiver? callee = some receiver → Rendered Term) :
    Rendered (Option Term) :=
  match m.form with
  | .free => .ok none
  | .member =>
    match hr : t.receiver? callee with
    | some receiver => (inline receiver hr).map some
    | none => .error (.defect (.missingReceiver id m.name.text (t.span id)))

/-- The term of an expression in an environment, with the macros that are under
expansion.  `keep` puts a term in the place of a node that had a type. -/
def inline (t : Tree) (o : Options) (keep : Option NodeId → Term → Term) (env : Env)
    (expanding : List NodeId) (id : NodeId) : Rendered Term :=
  match hk : t.kind? id with
  | none => .error (.outside id)
  | some (.literal _ text) => .ok (.literal (t.resolved? id) text)
  | some (.list elements) => do
    let terms ← collect elements fun element _ => t.inline o keep env expanding element
    return .list (t.resolved? id) terms
  | some (.native parts) => do
    let terms ← collect parts fun part _ => t.inline o keep env expanding part
    return .native (t.resolved? id) terms
  | some (.typeRef path parameters) => do
    let terms ← collect parameters fun parameter _ => t.inline o keep env expanding parameter
    return .typeRef (t.resolved? id) (path.map (inlineSegment env)) terms
  | some (.var name definition) => .ok (t.inlineVar keep env id name definition)
  | some (.attr receiver member) => do
    let term ← t.inline o keep env expanding receiver
    return .attr (t.resolved? id) term member
  | some (.call callee args) => do
    let terms ← collect args fun arg _ => t.inline o keep env expanding arg
    match hm : t.macroOf? callee with
    | none =>
      let head ← t.inline o keep env expanding callee
      return .call (t.resolved? id) head terms
    | some m =>
      if hnew : m.id ∈ expanding then
        .error (.defect (.recursiveMacro id m.name.text (t.span id)))
      else if terms.length < m.params.length then
        .error (.defect (.macroArity id m.name.text m.params.length terms.length (t.span id)))
      else
        let receiver ← t.receiverTerm id callee m fun receiver hr =>
          t.inline o keep env expanding receiver
        let inner ← t.expansionEnv o receiver m.params terms
        let body ← t.inline o keep inner (m.id :: expanding) m.body
        return keep (t.resolved? id) body
  | some other => .error (t.unhandled id other .expression)
termination_by (t.idle expanding, t.room id)
decreasing_by
  · exact .right _ (room_lt_of_kind? hk ‹_›)
  · exact .right _ (room_lt_of_kind? hk ‹_›)
  · exact .right _ (room_lt_of_kind? hk ‹_›)
  · exact .right _ (room_lt_of_kind? hk List.mem_cons_self)
  · exact .right _ (room_lt_of_kind? hk (List.mem_cons_of_mem _ ‹_›))
  · exact .right _ (room_lt_of_kind? hk List.mem_cons_self)
  · exact .right _ (Nat.lt_trans (room_lt_of_receiver? hr) (room_lt_of_kind? hk List.mem_cons_self))
  · exact .left _ _ (idle_cons_lt (index_lt_of_kind? (macroOf?_eq_some_iff.1 hm).2) hnew)

section

variable {t : Tree} {o : Options} {keep : Option NodeId → Term → Term} {env : Env}
  {expanding : List NodeId} {id : NodeId}

/-! ## How inlining succeeds -/

theorem inline_literal {form : LiteralForm} {text : String}
    (hk : t.kind? id = some (.literal form text)) :
    t.inline o keep env expanding id = .ok (.literal (t.resolved? id) text) := by
  rw [inline]
  split <;> rename_i hk' <;> cases hk.symm.trans hk'
  · rfl
  · grind

theorem inline_list {elements : List NodeId} {terms : List Term}
    (hk : t.kind? id = some (.list elements))
    (h : List.Forall₂ (fun element term => t.inline o keep env expanding element = .ok term)
      elements terms) :
    t.inline o keep env expanding id = .ok (.list (t.resolved? id) terms) := by
  rw [inline]
  split <;> rename_i hk' <;> cases hk.symm.trans hk'
  · rw [collect_eq_ok_iff.2 h]
    rfl
  · grind

theorem inline_native {parts : List NodeId} {terms : List Term}
    (hk : t.kind? id = some (.native parts))
    (h : List.Forall₂ (fun part term => t.inline o keep env expanding part = .ok term)
      parts terms) :
    t.inline o keep env expanding id = .ok (.native (t.resolved? id) terms) := by
  rw [inline]
  split <;> rename_i hk' <;> cases hk.symm.trans hk'
  · rw [collect_eq_ok_iff.2 h]
    rfl
  · grind

theorem inline_typeRef {path : List Name} {parameters : List NodeId} {terms : List Term}
    (hk : t.kind? id = some (.typeRef path parameters))
    (h : List.Forall₂ (fun parameter term => t.inline o keep env expanding parameter = .ok term)
      parameters terms) :
    t.inline o keep env expanding id =
      .ok (.typeRef (t.resolved? id) (path.map (inlineSegment env)) terms) := by
  rw [inline]
  split <;> rename_i hk' <;> cases hk.symm.trans hk'
  · rw [collect_eq_ok_iff.2 h]
    rfl
  · grind

theorem inline_var {name : Name} {definition : Option NodeId}
    (hk : t.kind? id = some (.var name definition)) :
    t.inline o keep env expanding id = .ok (t.inlineVar keep env id name definition) := by
  rw [inline]
  split <;> rename_i hk' <;> cases hk.symm.trans hk'
  · rfl
  · grind

theorem inline_attr {receiver : NodeId} {member : Name} {term : Term}
    (hk : t.kind? id = some (.attr receiver member))
    (h : t.inline o keep env expanding receiver = .ok term) :
    t.inline o keep env expanding id = .ok (.attr (t.resolved? id) term member) := by
  rw [inline]
  split <;> rename_i hk' <;> cases hk.symm.trans hk'
  · rw [h]
    rfl
  · grind

theorem inline_call {callee : NodeId} {args : List NodeId} {head : Term} {terms : List Term}
    (hk : t.kind? id = some (.call callee args)) (hm : t.macroOf? callee = none)
    (hcallee : t.inline o keep env expanding callee = .ok head)
    (hargs : List.Forall₂ (fun arg term => t.inline o keep env expanding arg = .ok term)
      args terms) :
    t.inline o keep env expanding id = .ok (.call (t.resolved? id) head terms) := by
  rw [inline]
  split <;> rename_i hk' <;> cases hk.symm.trans hk'
  · rw [collect_eq_ok_iff.2 hargs, hcallee]
    simp only [bind, Except.bind]
    split <;> simp_all [pure, Except.pure]
  · grind

theorem inline_expansion {callee : NodeId} {args : List NodeId} {m : MacroDef} {inner : Env}
    {receiver : Option Term} {terms : List Term} {body : Term}
    (hk : t.kind? id = some (.call callee args)) (hm : t.macroOf? callee = some m)
    (hnew : m.id ∉ expanding)
    (hargs : List.Forall₂ (fun arg term => t.inline o keep env expanding arg = .ok term)
      args terms)
    (hlength : m.params.length ≤ terms.length)
    (hreceiver : (t.receiverTerm id callee m fun receiver _ =>
      t.inline o keep env expanding receiver) = .ok receiver)
    (henv : t.expansionEnv o receiver m.params terms = .ok inner)
    (hbody : t.inline o keep inner (m.id :: expanding) m.body = .ok body) :
    t.inline o keep env expanding id = .ok (keep (t.resolved? id) body) := by
  rw [inline]
  split <;> rename_i hk' <;> cases hk.symm.trans hk'
  · rw [collect_eq_ok_iff.2 hargs]
    simp only [bind, Except.bind]
    split <;> rename_i hm' <;> cases hm.symm.trans hm'
    rw [dif_neg hnew, if_neg (by omega)]
    simp only [hreceiver, henv, hbody, pure, Except.pure]
  · grind

end

/-! ## Scopes and environments -/

section

variable {t : Tree} {o : Options} {scope : Substitutions} {env : Env}

/-- The same keys, and under each a text and a term with that text. -/
def Agrees (t : Tree) (o : Options) (scope : Substitutions) (env : Env) : Prop :=
  ∀ key, Option.Rel (fun text term => Term.text? t o term = some text) (scope.find? key)
    (env.find? key)

theorem agrees_empty : t.Agrees o Table.empty Table.empty := fun _ => .none

theorem Agrees.insert (h : t.Agrees o scope env) (key : String) {text : String} {term : Term}
    (hterm : term.text? t o = some text) :
    t.Agrees o (scope.insert key text) (env.insert key term) := by
  intro other
  rw [Table.find?_insert, Table.find?_insert]
  split
  · exact .some hterm
  · exact h other

theorem Agrees.insertAll (h : t.Agrees o scope env) {texts : List (String × String)}
    {terms : List (String × Term)}
    (hall : List.Forall₂ (fun a b => a.1 = b.1 ∧ b.2.text? t o = some a.2) texts terms) :
    t.Agrees o (scope.insertAll texts) (env.insertAll terms) := by
  induction hall generalizing scope env with
  | nil => exact h
  | @cons a b _ _ hab _ ih =>
    have hstep := h.insert a.1 hab.2
    nth_rewrite 2 [hab.1] at hstep
    exact ih hstep

theorem forall₂_zip_names (names : List String) {texts : List String} {terms : List Term}
    (h : List.Forall₂ (fun term text => Term.text? t o term = some text) terms texts) :
    List.Forall₂ (fun a b => a.1 = b.1 ∧ Term.text? t o b.2 = some a.2)
      (names.zip texts) (names.zip terms) := by
  induction h generalizing names with
  | nil => simp
  | cons hterm _ ih =>
    cases names with
    | nil => simp
    | cons name names => exact .cons ⟨rfl, hterm⟩ (ih names)

/-- The scope of an expansion and its environment agree when the texts of receiver
and arguments are those of the terms. -/
theorem Agrees.of_expansion {receiver : Option String} {params : List NodeId}
    {texts : List String} {receiverTerm : Option Term} {terms : List Term}
    (h : t.expansionScope o receiver params texts = .ok scope)
    (hreceiver : Option.Rel (fun text term => Term.text? t o term = some text) receiver
      receiverTerm)
    (hargs : List.Forall₂ (fun term text => Term.text? t o term = some text) terms texts) :
    ∃ env, t.expansionEnv o receiverTerm params terms = .ok env ∧ t.Agrees o scope env := by
  obtain ⟨names, hnames, he⟩ := bind_eq_ok_iff.1 h
  cases he
  refine ⟨_, bind_eq_ok_iff.2 ⟨names, hnames, rfl⟩, agrees_empty.insertAll ?_⟩
  have hstart : List.Forall₂ (fun a b => a.1 = b.1 ∧ Term.text? t o b.2 = some a.2)
      (receiver.map fun text => (o.selfName, text)).toList
      (receiverTerm.map fun term => (o.selfName, term)).toList := by
    cases hreceiver with
    | none => exact .nil
    | some hterm => exact .cons ⟨rfl, hterm⟩ .nil
  exact List.rel_append hstart (forall₂_zip_names names hargs)

theorem name_scoped (o : Options) (scope : Substitutions) (name : Name) :
    (o.scoped scope).name name = (scope.find? name.text).getD (o.namer.name name) := by
  simp only [Namer.name, Namer.write, Namer.lookup, Options.scoped, Options.namer,
    Table.find?_empty]
  cases scope.find? name.text <;> simp

/-- A name in a type is written as the text of its term. -/
theorem text?_inlineSegment (h : t.Agrees o scope env) (name : Name) :
    (inlineSegment env name).text? t o = some ((o.scoped scope).name name) := by
  have hkey := h name.text
  rw [name_scoped, inlineSegment]
  generalize scope.find? name.text = text at hkey ⊢
  generalize env.find? name.text = term at hkey ⊢
  cases hkey with
  | none => rfl
  | some hterm => exact hterm

/-- A variable is written as the text of its term. -/
theorem text?_inlineVar (h : t.Agrees o scope env) {id : NodeId} {name : Name}
    {definition : Option NodeId} {text : String}
    (htext : t.varText o (o.scoped scope) id name definition = .ok text) :
    (t.inlineVar .placed env id name definition).text? t o = some text := by
  unfold varText at htext
  split at htext
  · cases htext
  · next definition =>
    split at htext
    · cases htext
    · next kind hd =>
      split at htext
      · next hsite =>
        cases htext
        have hkey := h name.text
        rw [name_scoped]
        generalize hfound : scope.find? name.text = found at hkey ⊢
        generalize hbound : env.find? name.text = bound at hkey
        cases hkey with
        | none => simp [inlineVar, hd, hsite, hbound, Term.text?, Term.boundText?]
        | some hterm => simp [inlineVar, hd, hsite, hbound, Term.text?, hterm]
      · next hsite =>
        cases htext
        simp [inlineVar, hd, hsite, Term.text?, Term.boundText?]
      · next hsite =>
        cases htext
        simp [inlineVar, hd, hsite, Term.text?, Term.boundText?]
      · cases htext

theorem type_inlineVar (t : Tree) (env : Env) (id : NodeId) (name : Name)
    (definition : Option NodeId) :
    (t.inlineVar .placed env id name definition).type = t.resolved? id := by
  unfold inlineVar
  split <;> rfl

/-! ## Rendering writes the inlined term -/

/-- A node inlines to a term with a text, and shows the type it had. -/
def Inlines (t : Tree) (o : Options) (env : Env) (expanding : List NodeId) (id : NodeId)
    (text : String) : Prop :=
  ∃ term, t.inline o .placed env expanding id = .ok term ∧ term.type = t.resolved? id ∧
    term.text? t o = some text

variable {expanding : List NodeId} {id : NodeId}

theorem exists_terms_of_inlines {ids : List NodeId} {texts : List String}
    (h : List.Forall₂ (t.Inlines o env expanding) ids texts) :
    ∃ terms,
      List.Forall₂ (fun id term => t.inline o .placed env expanding id = .ok term) ids terms ∧
      List.Forall₂ (fun term text => Term.text? t o term = some text) terms texts := by
  induction h with
  | nil => exact ⟨[], .nil, .nil⟩
  | cons hfirst _ ih =>
    obtain ⟨term, hinline, _, htext⟩ := hfirst
    obtain ⟨terms, hterms, htexts⟩ := ih
    exact ⟨term :: terms, .cons hinline hterms, .cons htext htexts⟩

theorem inlines_of_typeText (hagree : t.Agrees o scope env) {text : String}
    (h : t.typeText (o.scoped scope) id = .ok text) : t.Inlines o env expanding id text := by
  induction id using induction_below (t := t) generalizing text with
  | step id ih =>
    rw [typeText] at h
    split at h
    · cases h
    · next path parameters hk =>
      obtain ⟨args, hargs, he⟩ := bind_eq_ok_iff.1 h
      cases he
      have hinner : List.Forall₂ (t.Inlines o env expanding) parameters args := by
        refine (forall₂_of_collect_eq_ok hargs).imp ?_
        rintro parameter arg ⟨hp, harg⟩
        exact ih _ parameter hk hp harg
      obtain ⟨terms, hterms, htexts⟩ := exists_terms_of_inlines hinner
      have hpath : Term.texts? t o (path.map (inlineSegment env)) =
          some (path.map (o.scoped scope).name) := by
        rw [Term.texts?_eq_some_iff, List.forall₂_map_left_iff, List.forall₂_map_right_iff,
          List.forall₂_same]
        exact fun name _ => text?_inlineSegment hagree name
      refine ⟨_, inline_typeRef hk hterms, rfl, ?_⟩
      simp only [Term.text?, hpath, Term.texts?_eq_some_iff.2 htexts]
      rfl
    · cases h

theorem macroOf?_eq_none {callee type : NodeId} {kind : Kind} (ht : t.resolution callee = .ok type)
    (hd : t.kind? type = some kind) (hother : kind.isMacro = false) : t.macroOf? callee = none := by
  rw [macroOf?, resolution_eq_ok_iff.1 ht]
  simp only [hd]
  split
  · next h => cases h; cases hother
  · rfl

theorem Inlines.list {elements : List NodeId} {texts : List String}
    (hk : t.kind? id = some (.list elements))
    (h : List.Forall₂ (t.Inlines o env expanding) elements texts) :
    t.Inlines o env expanding id
      ("new java.util.ArrayList(java.util.Arrays.asList(new Object[]\x7b" ++
        ", ".intercalate texts ++ "\x7d))") := by
  obtain ⟨terms, hterms, htexts⟩ := exists_terms_of_inlines h
  refine ⟨_, inline_list hk hterms, rfl, ?_⟩
  simp only [Term.text?, Term.texts?_eq_some_iff.2 htexts]
  rfl

theorem Inlines.native {parts : List NodeId} {texts : List String}
    (hk : t.kind? id = some (.native parts))
    (h : List.Forall₂ (t.Inlines o env expanding) parts texts) :
    t.Inlines o env expanding id (String.join texts) := by
  obtain ⟨terms, hterms, htexts⟩ := exists_terms_of_inlines h
  refine ⟨_, inline_native hk hterms, rfl, ?_⟩
  simp only [Term.text?, Term.texts?_eq_some_iff.2 htexts]
  rfl

/-- An attribute is written by a rule that looks at the text and the type of its
receiver. -/
theorem Inlines.attr {receiver type : NodeId} {member : Name} {inner text : String}
    (hk : t.kind? id = some (.attr receiver member)) (ht : t.resolution receiver = .ok type)
    (hreceiver : t.Inlines o env expanding receiver inner)
    (hrule : ∀ term : Term, term.type = some type → term.text? t o = some inner →
      (Term.attr (t.resolved? id) term member).text? t o = some text) :
    t.Inlines o env expanding id text := by
  obtain ⟨term, hterm, htype, htext⟩ := hreceiver
  rw [resolution_eq_ok_iff.1 ht] at htype
  exact ⟨_, inline_attr hk hterm, rfl, hrule term htype htext⟩

/-- A call is written by a rule that looks at the text and the type of its callee
and at the texts of its arguments. -/
theorem Inlines.call {callee type : NodeId} {args : List NodeId} {kind : Kind} {head text : String}
    {texts : List String} (hk : t.kind? id = some (.call callee args))
    (ht : t.resolution callee = .ok type) (hd : t.kind? type = some kind)
    (hother : kind.isMacro = false) (hcallee : t.Inlines o env expanding callee head)
    (hargs : List.Forall₂ (t.Inlines o env expanding) args texts)
    (hrule : ∀ (term : Term) (terms : List Term), term.type = some type →
      term.text? t o = some head → Term.texts? t o terms = some texts →
      (Term.call (t.resolved? id) term terms).text? t o = some text) :
    t.Inlines o env expanding id text := by
  obtain ⟨term, hterm, htype, htext⟩ := hcallee
  obtain ⟨terms, hterms, htexts⟩ := exists_terms_of_inlines hargs
  rw [resolution_eq_ok_iff.1 ht] at htype
  exact ⟨_, inline_call hk (macroOf?_eq_none ht hd hother) hterm hterms, rfl,
    hrule term terms htype htext (Term.texts?_eq_some_iff.2 htexts)⟩

/-- A call of a method needs the receiver of its callee only. -/
theorem Inlines.method {callee type : NodeId} {args params : List NodeId} {name : Name}
    {returnType body : Option NodeId} {receiver : NodeId} {inner : String} {texts : List String}
    (hk : t.kind? id = some (.call callee args)) (ht : t.resolution callee = .ok type)
    (hd : t.kind? type = some (.callable .member name returnType params body))
    (hr : t.receiver? callee = some receiver)
    (hreceiver : t.Inlines o env expanding receiver inner)
    (hargs : List.Forall₂ (t.Inlines o env expanding) args texts) :
    t.Inlines o env expanding id
      ("(" ++ inner ++ ")." ++ name.text ++ "(" ++ ", ".intercalate texts ++ ")") := by
  obtain ⟨term, hterm, _, htext⟩ := hreceiver
  obtain ⟨terms, hterms, htexts⟩ := exists_terms_of_inlines hargs
  unfold receiver? at hr
  split at hr
  · next member hcallee =>
    cases hr
    have hhead := inline_attr hcallee hterm
    refine ⟨_, inline_call hk (macroOf?_eq_none ht hd rfl) hhead hterms, rfl, ?_⟩
    simp [Term.text?, Term.type, Term.texts?_eq_some_iff.2 htexts, resolution_eq_ok_iff.1 ht, hd,
      htext]
  · cases hr

/-- The text of a macro call's receiver is that of its term. -/
theorem exists_receiverTerm {callee : NodeId} {m : MacroDef} {receiver : Option String}
    (hfree : m.form = .free → receiver = none)
    (hmember : m.form = .member → ∃ inner text, t.receiver? callee = some inner ∧
      t.Inlines o env expanding inner text ∧ receiver = some text) :
    ∃ term, (t.receiverTerm id callee m fun receiver _ =>
        t.inline o .placed env expanding receiver) = .ok term ∧
      Option.Rel (fun text term => Term.text? t o term = some text) receiver term := by
  unfold receiverTerm
  split
  · next hform =>
    rw [hfree hform]
    exact ⟨none, rfl, .none⟩
  · next hform =>
    obtain ⟨inner, text, hr, ⟨term, hterm, _, htext⟩, rfl⟩ := hmember hform
    refine ⟨some term, ?_, .some htext⟩
    split <;> rename_i hr' <;> cases hr.symm.trans hr'
    exact map_eq_ok_iff.2 ⟨term, hterm, rfl⟩

/-- A call of a macro is written as the body, once an environment agrees with the
scope that the texts of receiver and arguments make. -/
theorem Inlines.expansion {callee : NodeId} {args : List NodeId} {m : MacroDef}
    {inner : Substitutions} {receiver : Option String} {receiverTerm : Option Term}
    {texts : List String} {text : String} (hk : t.kind? id = some (.call callee args))
    (hm : t.macroOf? callee = some m) (hnew : m.id ∉ expanding)
    (hreceiver : (t.receiverTerm id callee m fun receiver _ =>
      t.inline o .placed env expanding receiver) = .ok receiverTerm)
    (hrel : Option.Rel (fun text term => Term.text? t o term = some text) receiver receiverTerm)
    (hargs : List.Forall₂ (t.Inlines o env expanding) args texts)
    (hlength : m.params.length ≤ texts.length)
    (hscope : t.expansionScope o receiver m.params texts = .ok inner)
    (hbody : ∀ env, t.Agrees o inner env → t.Inlines o env (m.id :: expanding) m.body text) :
    t.Inlines o env expanding id text := by
  obtain ⟨terms, hterms, htexts⟩ := exists_terms_of_inlines hargs
  obtain ⟨innerEnv, henv, hagree⟩ := Agrees.of_expansion hscope hrel htexts
  obtain ⟨body, hinline, _, htext⟩ := hbody innerEnv hagree
  have hlength' : m.params.length ≤ terms.length := by rw [htexts.length_eq]; exact hlength
  exact ⟨_, inline_expansion hk hm hnew hterms hlength' hreceiver henv hinline, rfl, htext⟩

/-- Rendering an expression writes its inlined term. -/
theorem inlines_of_exprText {text : String} (hagree : t.Agrees o scope env)
    (h : t.exprText o (o.scoped scope) expanding id = .ok text) :
    t.Inlines o env expanding id text := by
  -- An activation is one of a scope, and any environment that agrees with it will do.
  refine exprText_induction (t := t) (o := o)
    (motive := fun frame text => ∀ scope env, frame.namer = o.scoped scope →
      t.Agrees o scope env → t.Inlines o env frame.expanding frame.id text)
    ?_ h scope env rfl hagree
  clear h hagree
  rintro ⟨namer, expanding, id⟩ text hrule scope env rfl hagree
  have hvisit : ∀ {ids : List NodeId} {texts : List String},
      List.Forall₂ (fun child text => ∀ scope' env', o.scoped scope = o.scoped scope' →
        t.Agrees o scope' env' → t.Inlines o env' expanding child text) ids texts →
      List.Forall₂ (t.Inlines o env expanding) ids texts :=
    fun hall => hall.imp fun _ _ hchild => hchild scope env rfl hagree
  cases hrule with
  | literal hk => exact ⟨_, inline_literal hk, rfl, rfl⟩
  | list hk h => exact .list hk (hvisit h)
  | native hk h => exact .native hk (hvisit h)
  | type hk h => exact inlines_of_typeText hagree h
  | var hk h => exact ⟨_, inline_var hk, type_inlineVar t env id _ _, text?_inlineVar hagree h⟩
  | member hk ht hd hkind h =>
    refine .attr hk ht (h scope env rfl hagree) fun term htype htext => ?_
    exact Term.text?_member htype hd hkind htext
  | packaged hk ht hd hmember hkind h =>
    refine .attr hk ht (h scope env rfl hagree) fun term htype htext => ?_
    exact Term.text?_packaged htype hd (resolution_eq_ok_iff.1 hmember) hkind htext
  | construct hk ht hd hkind h hargs =>
    refine .call hk ht hd (Kind.isMacro_of_isObjectType hkind) (h scope env rfl hagree)
      (hvisit hargs) fun term terms htype htext htexts => ?_
    exact Term.text?_construct htype hd hkind htext htexts
  | function hk ht hd hkind h hargs =>
    refine .call hk ht hd (Kind.isMacro_of_isFunction hkind) (h scope env rfl hagree)
      (hvisit hargs) fun term terms htype htext htexts => ?_
    exact Term.text?_function htype hd hkind htext htexts
  | method hk ht hd hr h hargs =>
    exact .method hk ht hd hr (h scope env rfl hagree) (hvisit hargs)
  | @expansion callee type body args params form name receiver texts inner text hk ht hd hfree
      hmember hnew hargs hlength hscope h =>
    let m : MacroDef := { id := type, form, name, params, body }
    have hm : t.macroOf? callee = some m :=
      macroOf?_eq_some_iff.2 ⟨resolution_eq_ok_iff.1 ht, hd⟩
    have hmember' : m.form = .member → ∃ id text, t.receiver? callee = some id ∧
        t.Inlines o env expanding id text ∧ receiver = some text := by
      intro hform
      obtain ⟨id, text, hr, hid, hsome⟩ := hmember hform
      exact ⟨id, text, hr, hid scope env rfl hagree, hsome⟩
    obtain ⟨term, hterm, hrel⟩ := exists_receiverTerm hfree hmember'
    -- The body is rendered under the scope of the expansion alone.
    exact .expansion hk hm hnew hterm hrel (hvisit hargs) hlength hscope
      fun env' hagree' => h inner env' rfl hagree'

end

/-- Where an expression can be rendered, it inlines to a term without macro calls,
and the rendering is the text of that term under the built-in names alone. -/
theorem text?_inline_of_expr (t : Tree) (o : Options) (id : NodeId) (text : String)
    (h : t.expr o id = .ok text) :
    ∃ term, t.inline o .placed Table.empty [] id = .ok term ∧ term.macroFree t = true ∧
      term.text? t o = some text := by
  have hinlines : t.Inlines o Table.empty [] id text := inlines_of_exprText agrees_empty h
  obtain ⟨term, hinline, _, htext⟩ := hinlines
  exact ⟨term, hinline, Term.macroFree_of_text? term htext, htext⟩

/-- A method macro that adds its argument to its receiver, and a macro that gives
its argument back.  Both call their parameter `x`, and a call of the second is the
argument of a call of the first. -/
def nestedExpansion : Tree where
  nodes := #[
    { kind := .root [⟨1⟩, ⟨9⟩, ⟨11⟩, ⟨15⟩] },
    { kind := .typeDef .classType { text := "C" } [] [⟨2⟩], parent := some ⟨0⟩ },
    { kind := .macroDef .member { text := "plus" } [⟨3⟩] ⟨5⟩, parent := some ⟨1⟩ },
    { kind := .binding .plain ⟨4⟩ { text := "x" } none, parent := some ⟨2⟩ },
    { kind := .typeRef [{ text := "int" }] [], parent := some ⟨3⟩ },
    { kind := .native [⟨6⟩, ⟨7⟩, ⟨8⟩], parent := some ⟨2⟩ },
    { kind := .var { text := "self" } (some ⟨9⟩), parent := some ⟨5⟩ },
    { kind := .literal .fixed " + ", parent := some ⟨5⟩ },
    { kind := .var { text := "x" } (some ⟨3⟩), parent := some ⟨5⟩ },
    { kind := .binding .plain ⟨10⟩ { text := "self" } none, parent := some ⟨0⟩ },
    { kind := .typeRef [{ text := "C" }] [], parent := some ⟨9⟩ },
    { kind := .macroDef .free { text := "same" } [⟨12⟩] ⟨14⟩, parent := some ⟨0⟩ },
    { kind := .binding .plain ⟨13⟩ { text := "x" } none, parent := some ⟨11⟩ },
    { kind := .typeRef [{ text := "int" }] [], parent := some ⟨12⟩ },
    { kind := .var { text := "x" } (some ⟨12⟩), parent := some ⟨11⟩ },
    { kind := .call ⟨16⟩ [⟨18⟩], parent := some ⟨0⟩ },
    { kind := .attr ⟨17⟩ { text := "plus" }, parent := some ⟨15⟩, resolved := some ⟨2⟩ },
    { kind := .literal .number "1", parent := some ⟨16⟩ },
    { kind := .call ⟨19⟩ [⟨20⟩], parent := some ⟨15⟩ },
    { kind := .var { text := "same" } (some ⟨11⟩), parent := some ⟨18⟩, resolved := some ⟨11⟩ },
    { kind := .literal .number "2", parent := some ⟨18⟩ }]
  root := ⟨0⟩
  wellFormed := wellFormed_of_ofParts (by decide)

theorem text?_inline_nestedExpansion :
    nestedExpansion.expr {} ⟨15⟩ = .ok "1 + 2" ∧
      ∃ term, nestedExpansion.inline {} .placed Table.empty [] ⟨15⟩ = .ok term ∧
        term.macroFree nestedExpansion = true ∧ term.text? nestedExpansion {} = some "1 + 2" := by
  have h : nestedExpansion.expr {} ⟨15⟩ = .ok "1 + 2" := by cbv
  exact ⟨h, text?_inline_of_expr nestedExpansion {} ⟨15⟩ "1 + 2" h⟩

/-! ## One type for a place and for what stands there -/

/-- A macro that gives its argument back, with a class recorded as the type of its
body, and a call of it with a function of a package. -/
def functionArgument : Tree where
  nodes := #[
    { kind := .root [⟨1⟩, ⟨3⟩, ⟨4⟩, ⟨8⟩] },
    { kind := .package { text := "p" } [⟨2⟩], parent := some ⟨0⟩ },
    { kind := .callable .free { text := "f" } none [] none, parent := some ⟨1⟩ },
    { kind := .typeDef .classType { text := "C" } [] [], parent := some ⟨0⟩ },
    { kind := .macroDef .free { text := "m" } [⟨5⟩] ⟨7⟩, parent := some ⟨0⟩ },
    { kind := .binding .plain ⟨6⟩ { text := "x" } none, parent := some ⟨4⟩ },
    { kind := .typeRef [{ text := "C" }] [], parent := some ⟨5⟩ },
    { kind := .var { text := "x" } (some ⟨5⟩), parent := some ⟨4⟩, resolved := some ⟨3⟩ },
    { kind := .call ⟨9⟩ [⟨10⟩], parent := some ⟨0⟩, resolved := some ⟨3⟩ },
    { kind := .var { text := "m" } (some ⟨4⟩), parent := some ⟨8⟩, resolved := some ⟨4⟩ },
    { kind := .attr ⟨11⟩ { text := "f" }, parent := some ⟨8⟩, resolved := some ⟨2⟩ },
    { kind := .var { text := "p" } (some ⟨1⟩), parent := some ⟨10⟩, resolved := some ⟨1⟩ }]
  root := ⟨0⟩
  wellFormed := wellFormed_of_ofParts (by decide)

/-- If the argument took the type of the variable that it replaces, it would no
longer be written as a function. -/
theorem retype_changes_text :
    functionArgument.expr {} ⟨8⟩ = .ok "p.Functions.f" ∧
      ∃ term, functionArgument.inline {} .retype Table.empty [] ⟨8⟩ = .ok term ∧
        term.text? functionArgument {} = some "p.f" := by
  let package := Term.var (some ⟨1⟩) { text := "p" } (some ⟨1⟩)
  refine ⟨by cbv, .attr (some ⟨3⟩) package { text := "f" }, ?_, ?_⟩
  · cbv
  · cbv

end Tree

end Emitter
