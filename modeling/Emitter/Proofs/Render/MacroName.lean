import Emitter.Proofs.Project.Walk
import Emitter.Proofs.Render.Diagnosis
import Emitter.Proofs.Render.Equation

/-!
# Names of macros

A macro leaves no text behind, and neither does the callee of a macro call.
`Tree.RenamesMacros` relates two trees that are the same node by node, except that a macro, or
the variable or attribute by which one is called, may have another text (`Kind.respell`).

Between two such trees every renderer has the same result.  The failures may differ, because
a report names the macro; so results are compared as options.

* The renderers of types and statements agree at every node.
* The renderer of expressions agrees at every node but the callees of macro calls
  (`RenamesMacros.exprText`), and it is never started at one of those: a callee is owned by its
  call and by nothing else, and a call of a macro starts at the receiver, at the arguments and
  at the body.
* A parameter of a macro keeps its name, which the scope of an expansion reads.
-/

namespace Emitter

/-- The kind with another text for the name of a macro, a variable or an attribute. -/
def Kind.respell (text : String) : Kind → Kind
  | macroDef form name params body => macroDef form { name with text } params body
  | var name definition => var { name with text } definition
  | attr receiver member => attr receiver { member with text }
  | kind => kind

/-- The node with another text for the name of a macro, a variable or an attribute. -/
def Node.respell (text : String) (node : Node) : Node :=
  { node with kind := node.kind.respell text }

namespace Kind

variable (text : String) (kind : Kind)

@[simp] theorem label_respell : (kind.respell text).label = kind.label := by
  cases kind with
  | macroDef form => cases form <;> rfl
  | _ => rfl

@[simp] theorem children_respell : (kind.respell text).children = kind.children := by
  cases kind <;> rfl

@[simp] theorem bindingSite_respell : (kind.respell text).bindingSite = kind.bindingSite := by
  cases kind <;> rfl

theorem exists_respell_eq : ∃ text, kind.respell text = kind := by
  cases kind with
  | macroDef form name params body => exact ⟨name.text, rfl⟩
  | var name definition => exact ⟨name.text, rfl⟩
  | attr receiver member => exact ⟨member.text, rfl⟩
  | _ => exact ⟨"", rfl⟩

end Kind

namespace Tree

/-! ## Trees that differ in names of macros -/

/-- Whether a macro lists a node among its parameters. -/
def IsMacroParameter (t : Tree) (id : NodeId) : Prop :=
  ∃ owner form name params body,
    t.kind? owner = some (.macroDef form name params body) ∧ id ∈ params

/-- Whether a node is the callee of a call and resolves to a macro. -/
def IsMacroCallee (t : Tree) (id : NodeId) : Prop :=
  ∃ call args type kind, t.kind? call = some (.call id args) ∧ t.resolved? id = some type ∧
    t.kind? type = some kind ∧ kind.isMacro = true

/-- Whether the text at a node only serves to name a macro: the node is a macro that is not
itself a parameter of one, or the callee of a macro call. -/
inductive NamesMacro (t : Tree) (id : NodeId) : Prop where
  | definition {kind : Kind} (hk : t.kind? id = some kind) (hkind : kind.isMacro = true)
      (hfree : ¬ t.IsMacroParameter id)
  | callee (hcallee : t.IsMacroCallee id)

/-- The second tree is the first with other names for macros. -/
structure RenamesMacros (t renamed : Tree) : Prop where
  root : renamed.root = t.root
  size : renamed.size = t.size
  node : ∀ id, renamed.node? id = t.node? id ∨
    t.NamesMacro id ∧ ∃ text, renamed.node? id = (t.node? id).map (Node.respell text)

/-- Rendering an expression has the same result in both trees, if it has one. -/
def SameResult (t renamed : Tree) (o : Options) (namer : Namer) (expanding : List NodeId)
    (id : NodeId) : Prop :=
  (renamed.exprText o namer expanding id).toOption = (t.exprText o namer expanding id).toOption

variable {t : Tree}

/-- The only node that owns the callee of a macro call is the call. -/
theorem IsMacroCallee.eq_call {owner child : NodeId} {kind : Kind} (h : t.IsMacroCallee child)
    (hk : t.kind? owner = some kind) (hc : child ∈ kind.children) :
    ∃ args, kind = .call child args := by
  obtain ⟨call, args, _, _, hcall, _⟩ := h
  have howner := parent?_of_mem_children (mem_children_of_kind? hk hc)
  have hcaller := parent?_of_mem_children (mem_children_of_kind? hcall List.mem_cons_self)
  cases howner.symm.trans hcaller
  cases hk.symm.trans hcall
  exact ⟨args, rfl⟩

theorem not_isMacroCallee_arg {id callee arg : NodeId} {args : List NodeId}
    (hk : t.kind? id = some (.call callee args)) (ha : arg ∈ args) : ¬ t.IsMacroCallee arg := by
  intro h
  obtain ⟨others, he⟩ := h.eq_call hk (List.mem_cons_of_mem callee ha)
  have hnodup : (callee :: args).Nodup := by
    have := t.nodup_children id
    rwa [children_of_kind? hk] at this
  cases he
  exact (List.nodup_cons.1 hnodup).1 ha

theorem not_isMacroCallee_of_other {callee type : NodeId} {kind : Kind}
    (ht : t.resolution callee = .ok type) (hd : t.kind? type = some kind)
    (hother : kind.isMacro = false) : ¬ t.IsMacroCallee callee := by
  rintro ⟨_, _, found, kind', _, hr, hd', hkind⟩
  cases (resolution_eq_ok_iff.1 ht).symm.trans hr
  cases hd.symm.trans hd'
  rw [hother] at hkind
  cases hkind

theorem not_isMacroCallee_receiver {callee receiver : NodeId}
    (hr : t.receiver? callee = some receiver) : ¬ t.IsMacroCallee receiver := by
  intro h
  obtain ⟨member, hk⟩ := receiver?_eq_some_iff.1 hr
  obtain ⟨args, he⟩ := h.eq_call hk List.mem_cons_self
  cases he

namespace RenamesMacros

variable {renamed : Tree} (h : t.RenamesMacros renamed)

include h

theorem kind? (id : NodeId) :
    ∃ text, renamed.kind? id = (t.kind? id).map (Kind.respell text) := by
  unfold Tree.kind?
  rcases h.node id with hsame | ⟨_, text, hother⟩
  · rw [hsame]
    cases t.node? id with
    | none => exact ⟨"", rfl⟩
    | some node =>
      obtain ⟨text, htext⟩ := node.kind.exists_respell_eq
      exact ⟨text, congrArg some htext.symm⟩
  · rw [hother]
    exact ⟨text, by cases t.node? id <;> rfl⟩

theorem kind?_of_none {id : NodeId} (hk : t.kind? id = none) : renamed.kind? id = none := by
  obtain ⟨text, hk'⟩ := h.kind? id
  rw [hk', hk]
  rfl

theorem kind?_of_some {id : NodeId} {kind : Kind} (hk : t.kind? id = some kind) :
    ∃ text, renamed.kind? id = some (kind.respell text) := by
  obtain ⟨text, hk'⟩ := h.kind? id
  rw [hk', hk]
  exact ⟨text, rfl⟩

/-- A node whose text does not name a macro is the same in both trees. -/
theorem kind?_eq {id : NodeId} (hid : ¬ t.NamesMacro id) : renamed.kind? id = t.kind? id := by
  rcases h.node id with hsame | ⟨hnames, _⟩
  · unfold Tree.kind?
    rw [hsame]
  · exact (hid hnames).elim

theorem kind?_of_not_isMacro {id : NodeId} {kind : Kind} (hk : t.kind? id = some kind)
    (hother : kind.isMacro = false) (hid : ¬ t.IsMacroCallee id) :
    renamed.kind? id = some kind := by
  rw [h.kind?_eq, hk]
  rintro (⟨hk', hkind, _⟩ | hcallee)
  · cases hk.symm.trans hk'
    rw [hother] at hkind
    cases hkind
  · exact hid hcallee

theorem resolution (id : NodeId) : renamed.resolution id = t.resolution id := by
  unfold Tree.resolution
  rcases h.node id with hsame | ⟨_, text, hother⟩
  · rw [hsame]
  · rw [hother]
    cases t.node? id with
    | none => rfl
    | some node => simp [Node.respell]

theorem parentOf (id : NodeId) : renamed.nodes.parentOf id = t.nodes.parentOf id := by
  show (renamed.node? id).bind _ = (t.node? id).bind _
  rcases h.node id with hsame | ⟨_, text, hother⟩
  · rw [hsame]
  · rw [hother]
    cases t.node? id <;> rfl

theorem children (id : NodeId) : renamed.children id = t.children id := by
  show renamed.nodes.childrenOf id = t.nodes.childrenOf id
  unfold Arena.childrenOf
  rcases h.node id with hsame | ⟨_, text, hother⟩
  · have hsame' : renamed.nodes.node? id = t.nodes.node? id := hsame
    rw [hsame']
  · have hother' : renamed.nodes.node? id = (t.nodes.node? id).map (Node.respell text) := hother
    rw [hother']
    cases t.nodes.node? id with
    | none => rfl
    | some node => exact node.kind.children_respell text

theorem ancestors (id : NodeId) : renamed.ancestors id = t.ancestors id := by
  have hchain : ∀ n id, renamed.nodes.chain n id = t.nodes.chain n id := by
    intro n
    induction n with
    | zero => exact fun _ => rfl
    | succ n ih =>
      intro id
      simp only [Arena.chain, h.parentOf, ih]
  unfold Tree.ancestors
  rw [h.size, hchain]

theorem package (namer : Namer) (id : NodeId) : namer.package renamed id = namer.package t id := by
  unfold Namer.package Namer.enclosing
  rw [h.ancestors]
  congr 2
  funext node
  obtain ⟨text, hk⟩ := h.kind? node
  rw [hk]
  cases t.kind? node with
  | none => rfl
  | some kind => cases kind <;> rfl

theorem receiver? (callee : NodeId) : renamed.receiver? callee = t.receiver? callee := by
  unfold Tree.receiver?
  obtain ⟨text, hk⟩ := h.kind? callee
  rw [hk]
  cases t.kind? callee with
  | none => rfl
  | some kind => cases kind <;> rfl

/-! ## Types and names -/

theorem typeText (namer : Namer) (id : NodeId) :
    (renamed.typeText namer id).toOption = (t.typeText namer id).toOption := by
  induction id using induction_below (t := t) with
  | step id ih =>
    cases hk : t.kind? id with
    | none => rw [typeText_outside hk, typeText_outside (h.kind?_of_none hk)]
    | some kind =>
      obtain ⟨text, hk'⟩ := h.kind?_of_some hk
      cases kind with
      | typeRef path parameters =>
        rw [typeText_typeRef hk, typeText_typeRef hk']
        refine toOption_bind_congr ?_ fun _ _ => rfl
        exact toOption_collect_congr fun parameter hp => ih _ parameter hk hp
      | _ =>
        rw [typeText_notType hk rfl, typeText_notType hk' rfl]
        rfl

theorem varText (o : Options) (namer : Namer) (id : NodeId) (name : Name)
    (definition : Option NodeId) :
    (renamed.varText o namer id name definition).toOption =
      (t.varText o namer id name definition).toOption := by
  cases definition with
  | none => rfl
  | some target =>
    obtain ⟨text, hk⟩ := h.kind? target
    simp only [Tree.varText, hk, h.package]
    cases t.kind? target with
    | none => rfl
    | some kind =>
      simp only [Option.map_some, Kind.bindingSite_respell]
      cases kind.bindingSite with
      | none => rfl
      | some site => cases site <;> rfl

/-- The scope of an expansion reads the names of parameters, which are the same. -/
theorem expansionScope {type body : NodeId} {form : CallableForm} {name : Name}
    {params : List NodeId} (hd : t.kind? type = some (.macroDef form name params body))
    (o : Options) (receiver : Option String) (args : List String) :
    (renamed.expansionScope o receiver params args).toOption =
      (t.expansionScope o receiver params args).toOption := by
  refine toOption_bind_congr (toOption_collect_congr fun param hp => ?_) fun _ _ => rfl
  have hsame : renamed.kind? param = t.kind? param := by
    apply h.kind?_eq
    rintro (⟨_, _, hfree⟩ | hcallee)
    · exact hfree ⟨type, form, name, params, body, hd, hp⟩
    · obtain ⟨args, he⟩ := hcallee.eq_call hd (List.mem_append_left _ hp)
      cases he
  unfold Tree.parameterName
  rw [hsame]
  cases t.kind? param with
  | none => rfl
  | some kind => cases hname : kind.name? <;> simp [hname, Except.toOption]

theorem receiverText {id callee : NodeId} {name name' : Name}
    {first second : NodeId → Rendered String}
    (hagree : ∀ receiver, t.receiver? callee = some receiver →
      (second receiver).toOption = (first receiver).toOption) :
    (renamed.receiverText id callee name' fun receiver _ => second receiver).toOption =
      (t.receiverText id callee name fun receiver _ => first receiver).toOption := by
  have hr := h.receiver? callee
  rcases Option.eq_none_or_eq_some (t.receiver? callee) with hnone | ⟨receiver, hsome⟩
  · rw [hnone] at hr
    rw [receiverText_of_none hr, receiverText_of_none hnone]
    rfl
  · rw [hsome] at hr
    rw [receiverText_of_some hr, receiverText_of_some hsome]
    exact hagree receiver hsome

/-! ## Expressions -/

section

variable {o : Options} {namer : Namer} {expanding : List NodeId} {id : NodeId}

theorem exprText_attr {receiver : NodeId} {member : Name}
    (hk : t.kind? id = some (.attr receiver member)) (hid : ¬ t.IsMacroCallee id)
    (hreceiver : SameResult t renamed o namer expanding receiver) :
    SameResult t renamed o namer expanding id := by
  unfold SameResult
  rw [Tree.exprText_attr hk, Tree.exprText_attr (h.kind?_of_not_isMacro hk rfl hid), h.resolution,
    h.resolution]
  refine toOption_bind_congr rfl fun type _ => ?_
  obtain ⟨text, htype⟩ := h.kind? type
  rw [htype]
  cases t.kind? type with
  | none => rfl
  | some kind =>
    cases kind with
    | typeDef | primitive => exact toOption_bind_congr hreceiver fun _ _ => rfl
    | package =>
      refine toOption_bind_congr hreceiver fun _ _ => ?_
      refine toOption_bind_congr rfl fun found _ => ?_
      obtain ⟨text, hfound⟩ := h.kind? found
      rw [hfound]
      cases t.kind? found with
      | none => rfl
      | some kind =>
        cases kind with
        | callable form => cases form <;> rfl
        | _ => rfl
    | callable form | macroDef form | binding form | literal form => cases form <;> rfl
    | _ => rfl

/-- A macro call is replaced by the same text, although it may be refused in other words. -/
theorem exprText_expansion {callee type body : NodeId} {args params : List NodeId}
    {form : CallableForm} {name : Name} (hk : t.kind? id = some (.call callee args))
    (ht : t.resolution callee = .ok type)
    (hd : t.kind? type = some (.macroDef form name params body))
    (hreceiver : ∀ receiver, t.receiver? callee = some receiver →
      SameResult t renamed o namer expanding receiver)
    (hargs : ∀ arg ∈ args, SameResult t renamed o namer expanding arg)
    (hbody : type ∉ expanding → ∀ scope,
      SameResult t renamed o (o.scoped scope) (type :: expanding) body) :
    SameResult t renamed o namer expanding id := by
  unfold SameResult
  obtain ⟨_, hk'⟩ := h.kind?_of_some hk
  obtain ⟨_, hd'⟩ := h.kind?_of_some hd
  rw [Tree.exprText_expansion hk ht hd,
    Tree.exprText_expansion hk' ((h.resolution callee).trans ht) hd']
  refine toOption_bind_congr ?_ fun receiver _ => ?_
  · cases form with
    | free => rfl
    | member =>
      exact toOption_bind_congr (h.receiverText hreceiver) fun _ _ => rfl
  · by_cases hold : type ∈ expanding
    · rw [if_pos hold, if_pos hold]
      rfl
    · rw [if_neg hold, if_neg hold]
      refine toOption_bind_congr (toOption_collect_congr hargs) fun texts _ => ?_
      by_cases hfew : texts.length < params.length
      · rw [if_pos hfew, if_pos hfew]
        rfl
      · rw [if_neg hfew, if_neg hfew]
        exact toOption_bind_congr (h.expansionScope hd o receiver texts)
          fun scope _ => hbody hold scope

theorem exprText_call {callee : NodeId} {args : List NodeId}
    (hk : t.kind? id = some (.call callee args))
    (hcallee : ¬ t.IsMacroCallee callee → SameResult t renamed o namer expanding callee)
    (hreceiver : ∀ receiver, t.receiver? callee = some receiver →
      SameResult t renamed o namer expanding receiver)
    (hargs : ∀ arg ∈ args, SameResult t renamed o namer expanding arg)
    (hbody : ∀ type form name params body, t.resolution callee = .ok type →
      t.kind? type = some (.macroDef form name params body) → type ∉ expanding → ∀ scope,
      SameResult t renamed o (o.scoped scope) (type :: expanding) body) :
    SameResult t renamed o namer expanding id := by
  unfold SameResult
  obtain ⟨_, hk'⟩ := h.kind?_of_some hk
  have htexts : (collect args fun arg _ => renamed.exprText o namer expanding arg).toOption =
      (collect args fun arg _ => t.exprText o namer expanding arg).toOption :=
    toOption_collect_congr hargs
  cases ht : t.resolution callee with
  | error halt =>
    rw [exprText_call_unresolved hk ht,
      exprText_call_unresolved hk' ((h.resolution callee).trans ht)]
  | ok type =>
    have ht' := (h.resolution callee).trans ht
    cases hd : t.kind? type with
    | none =>
      rw [exprText_call_outside hk ht hd, exprText_call_outside hk' ht' (h.kind?_of_none hd)]
    | some kind =>
      obtain ⟨text, hd'⟩ := h.kind?_of_some hd
      cases kind with
      | typeDef | primitive =>
        rw [exprText_construct hk ht hd rfl, exprText_construct hk' ht' hd' rfl]
        refine toOption_bind_congr (hcallee (not_isMacroCallee_of_other ht hd rfl)) fun _ _ => ?_
        exact toOption_bind_congr htexts fun _ _ => rfl
      | callable form =>
        cases form with
        | free =>
          rw [exprText_function hk ht hd, exprText_function hk' ht' hd']
          refine toOption_bind_congr (hcallee (not_isMacroCallee_of_other ht hd rfl)) fun _ _ => ?_
          exact toOption_bind_congr htexts fun _ _ => rfl
        | member =>
          rw [exprText_method hk ht hd, exprText_method hk' ht' hd']
          refine toOption_bind_congr (h.receiverText hreceiver) fun _ _ => ?_
          exact toOption_bind_congr htexts fun _ _ => rfl
      | macroDef form name params body =>
        exact h.exprText_expansion hk ht hd hreceiver hargs (hbody _ _ _ _ _ ht hd)
      | _ =>
        rw [exprText_call_refused hk ht hd rfl, exprText_call_refused hk' ht' hd' rfl]
        rfl

end

/-- An expression that is not the callee of a macro call has the same text in both trees. -/
theorem exprText (o : Options) (namer : Namer) (expanding : List NodeId) (id : NodeId)
    (hid : ¬ t.IsMacroCallee id) :
    SameResult t renamed o namer expanding id := by
  induction namer, expanding, id using exprText.induct t o with
  | case1 namer expanding id ih =>
    unfold SameResult
    cases hk : t.kind? id with
    | none => rw [exprText_outside hk, exprText_outside (h.kind?_of_none hk)]
    | some kind =>
      obtain ⟨text, hk'⟩ := h.kind?_of_some hk
      -- Away from calls, nothing that the node owns is the callee of a macro call.
      have hchild : (∀ callee args, kind ≠ .call callee args) → ∀ child ∈ kind.children,
          SameResult t renamed o namer expanding child := by
        intro hother child hc
        refine ih _ (.child hk hc) fun hcallee => ?_
        obtain ⟨args, he⟩ := hcallee.eq_call hk hc
        exact hother child args he
      cases kind with
      | literal => rw [exprText_literal hk, exprText_literal hk']
      | list elements =>
        rw [exprText_list hk, exprText_list hk']
        exact toOption_bind_congr (toOption_collect_congr (hchild (by simp))) fun _ _ => rfl
      | native parts =>
        rw [exprText_native hk, exprText_native hk']
        exact toOption_bind_congr (toOption_collect_congr (hchild (by simp))) fun _ _ => rfl
      | typeRef path parameters =>
        rw [exprText_typeRef hk, exprText_typeRef hk']
        exact h.typeText namer id
      | var name definition =>
        rw [exprText_var hk, exprText_var (h.kind?_of_not_isMacro hk rfl hid)]
        exact h.varText o namer id name definition
      | attr receiver member =>
        exact h.exprText_attr hk hid (hchild (by simp) receiver List.mem_cons_self)
      | call callee args =>
        refine h.exprText_call hk ?_ ?_ ?_ ?_
        · exact fun hcallee => ih _ (.child hk List.mem_cons_self) hcallee
        · exact fun receiver hr => ih _ (.receiver hk hr) (not_isMacroCallee_receiver hr)
        · exact fun arg ha => ih _ (.arg hk ha) (not_isMacroCallee_arg hk ha)
        · intro type form name params body ht hd hnew scope
          refine ih { namer := o.scoped scope, expanding := type :: expanding, id := body }
            (.body hk ht hd hnew) fun hcallee => ?_
          obtain ⟨args, he⟩ := hcallee.eq_call hd (List.mem_append_right _ List.mem_cons_self)
          cases he
      | _ =>
        rw [exprText_notExpression hk rfl, exprText_notExpression hk' rfl]
        rfl

/-- What a statement owns is not the callee of a macro call. -/
theorem expr (o : Options) {owner : NodeId} {kind : Kind} (hk : t.kind? owner = some kind)
    (id : NodeId) (hid : id ∈ kind.children) (hother : ∀ callee args, kind ≠ .call callee args) :
    (renamed.expr o id).toOption = (t.expr o id).toOption := by
  refine h.exprText o o.namer [] id fun hcallee => ?_
  obtain ⟨args, he⟩ := hcallee.eq_call hk hid
  exact hother id args he

/-! ## Statements -/

theorem bindingText (o : Options) {owner type : NodeId} {form : BindingForm} {name : Name}
    {value : Option NodeId} (hk : t.kind? owner = some (.binding form type name value)) :
    (renamed.bindingText o type name value).toOption =
      (t.bindingText o type name value).toOption := by
  refine toOption_bind_congr (h.typeText o.namer type) fun _ _ => ?_
  cases value with
  | none => rfl
  | some value =>
    have hvalue := h.expr o hk value (by simp [Kind.children]) (by simp)
    exact toOption_bind_congr hvalue fun _ _ => rfl

/-- The left side of an assignment may be a variable or an attribute, which the assignment
owns, so it is not the callee of a call. -/
theorem targetText (o : Options) {owner target value : NodeId}
    (hk : t.kind? owner = some (.assign target value)) :
    (renamed.targetText o target).toOption = (t.targetText o target).toOption := by
  have hid : ¬ t.IsMacroCallee target := by
    intro hcallee
    obtain ⟨args, he⟩ := hcallee.eq_call hk List.mem_cons_self
    cases he
  unfold Tree.targetText
  cases ht : t.kind? target with
  | none => rw [h.kind?_of_none ht]
  | some kind =>
    cases kind with
    | var => rw [h.kind?_of_not_isMacro ht rfl hid]
    | attr receiver =>
      rw [h.kind?_of_not_isMacro ht rfl hid]
      have hreceiver := h.expr o ht receiver List.mem_cons_self (by simp)
      exact toOption_bind_congr hreceiver fun _ _ => rfl
    | _ =>
      obtain ⟨text, ht'⟩ := h.kind?_of_some ht
      rw [ht']
      rfl

theorem returnText (o : Options) (returnType : Option NodeId) :
    (renamed.returnText o returnType).toOption = (t.returnText o returnType).toOption := by
  cases returnType with
  | none => rfl
  | some type => exact toOption_bind_congr (h.typeText o.namer type) fun _ _ => rfl

/-- A declaration or statement has the same text in both trees. -/
theorem stmtText (o : Options) (id : NodeId) :
    (renamed.stmtText o id).toOption = (t.stmtText o id).toOption := by
  induction id using induction_below (t := t) with
  | step id ih =>
    cases hk : t.kind? id with
    | none => rw [stmtText_of_outside hk, stmtText_of_outside (h.kind?_of_none hk)]
    | some kind =>
      obtain ⟨text, hk'⟩ := h.kind?_of_some hk
      have hchild : ∀ child ∈ kind.children,
          (renamed.stmtText o child).toOption = (t.stmtText o child).toOption :=
        fun child hc => ih _ child hk hc
      rw [stmtText_of_kind? hk, stmtText_of_kind? hk']
      cases kind with
      | typeDef form name parameters definitions =>
        refine toOption_bind_congr (toOption_collect_congr fun p hp => ?_) fun _ _ => ?_
        · exact hchild p (List.mem_append_left _ hp)
        · refine toOption_bind_congr (toOption_collect_congr fun d hd => ?_) fun _ _ => rfl
          exact hchild d (List.mem_append_right _ hd)
      | typeParam => rfl
      | callable form name returnType params body =>
        refine toOption_bind_congr (h.returnText o returnType) fun _ _ => ?_
        refine toOption_bind_congr (toOption_collect_congr fun p hp => ?_) fun _ _ => ?_
        · exact hchild p (by simp [Kind.children, hp])
        · refine toOption_bind_congr ?_ fun _ _ => rfl
          cases body with
          | none => rfl
          | some block =>
            have hblock := hchild block (by simp [Kind.children])
            exact toOption_bind_congr hblock fun _ _ => rfl
      | macroDef => rfl
      | binding form type name value =>
        have hbinding := h.bindingText o hk
        cases form with
        | plain => exact hbinding
        | field => exact toOption_bind_congr hbinding fun _ _ => rfl
      | block statements => exact toOption_bind_congr (toOption_collect_congr hchild) fun _ _ => rfl
      | localBinding declaration =>
        exact toOption_bind_congr (hchild declaration List.mem_cons_self) fun _ _ => rfl
      | ret value =>
        cases value with
        | none => rfl
        | some value =>
          have hvalue := h.expr o hk value List.mem_cons_self (by simp)
          exact toOption_bind_congr hvalue fun _ _ => rfl
      | exprStmt value =>
        have hvalue := h.expr o hk value List.mem_cons_self (by simp)
        exact toOption_bind_congr hvalue fun _ _ => rfl
      | assign target value =>
        have hvalue := h.expr o hk value (by simp [Kind.children]) (by simp)
        exact toOption_bind_congr (h.targetText o hk) fun _ _ =>
          toOption_bind_congr hvalue fun _ _ => rfl
      | cond predicate consequence alternative =>
        have hpredicate := h.expr o hk predicate List.mem_cons_self (by simp)
        have hpositive := hchild consequence (by simp [Kind.children])
        refine toOption_bind_congr hpredicate fun _ _ => ?_
        refine toOption_bind_congr hpositive fun _ _ => ?_
        refine toOption_bind_congr rfl fun _ _ => toOption_bind_congr ?_ fun _ _ => rfl
        cases alternative with
        | none => rfl
        | some block =>
          have hnegative := hchild block (by simp [Kind.children])
          exact toOption_bind_congr hnegative fun _ _ => rfl
      | _ => rfl

end RenamesMacros

end Tree

end Emitter
