import Mathlib.Data.List.Permutation
import Emitter.Proofs.Render.Equation
import Emitter.Proofs.Tree.Loading

/-!
# What a scope changes

The scope of an expansion rewrites names.  Rendering asks for names in two places only,
at type references and at variables, so two runs under different namers agree when they
agree there (`exprText_congr`).  A variable is rewritten only if it is bound to a
declaration; a type reference is rewritten in every segment of its path.  These are the
texts that a scope can change (`Rewritable`), and two scopes that agree on them give
every expression the same text or the same failure.

Segments of type references cannot be left out: `typeName_rewritten` is a macro
whose parameter has the name of a class, and whose body makes an object of that class.
-/

namespace Emitter

theorem collect_congr {α ε β : Type} {xs : List α} {render other : (x : α) → x ∈ xs → Except ε β}
    (h : ∀ x hx, render x hx = other x hx) : collect xs render = collect xs other :=
  congrArg (collect xs) (funext fun x => funext fun hx => h x hx)

namespace Tree

variable {t : Tree} {o : Options} {first second : Namer} {expanding : List NodeId}

/-! ## Names under two namers -/

/-- A type has the same text under two namers that write the segments of every type
reference in its subtree alike. -/
theorem typeText_congr {id : NodeId}
    (h : ∀ node path parameters, t.Below id node →
      t.kind? node = some (.typeRef path parameters) → path.map first.name = path.map second.name) :
    t.typeText first id = t.typeText second id := by
  induction id using induction_below (t := t) with
  | step id ih =>
    cases hk : t.kind? id with
    | none => rw [typeText_outside hk, typeText_outside hk]
    | some kind =>
      cases kind with
      | typeRef path parameters =>
        have hparameters : (collect parameters fun parameter _ => t.typeText first parameter) =
            collect parameters fun parameter _ => t.typeText second parameter :=
          collect_congr fun parameter hp => ih _ parameter hk hp
            fun node path parameters hbelow hnode =>
              h node path parameters (hbelow.of_child hk hp) hnode
        rw [typeText_typeRef hk, typeText_typeRef hk, h id path parameters .refl hk, hparameters]
      | _ => rw [typeText_notType hk rfl, typeText_notType hk rfl]

/-- A call has the same text under two namers when its callee, the receiver of the callee
and its arguments have. -/
theorem exprText_call_congr {id callee : NodeId} {args : List NodeId}
    (hk : t.kind? id = some (.call callee args))
    (hcallee : t.exprText o first expanding callee = t.exprText o second expanding callee)
    (hreceiver : ∀ receiver, t.receiver? callee = some receiver →
      t.exprText o first expanding receiver = t.exprText o second expanding receiver)
    (hargs : ∀ arg ∈ args, t.exprText o first expanding arg = t.exprText o second expanding arg) :
    t.exprText o first expanding id = t.exprText o second expanding id := by
  have htexts : (collect args fun arg _ => t.exprText o first expanding arg) =
      collect args fun arg _ => t.exprText o second expanding arg := collect_congr hargs
  have hself : ∀ name, (t.receiverText id callee name fun receiver _ =>
      t.exprText o first expanding receiver) =
        t.receiverText id callee name fun receiver _ => t.exprText o second expanding receiver := by
    intro name
    unfold receiverText
    split
    · next receiver hr => exact hreceiver receiver hr
    · rfl
  cases ht : t.resolution callee with
  | error halt => rw [exprText_call_unresolved hk ht, exprText_call_unresolved hk ht]
  | ok type =>
    cases hd : t.kind? type with
    | none => rw [exprText_call_outside hk ht hd, exprText_call_outside hk ht hd]
    | some kind =>
      cases kind with
      | typeDef | primitive =>
        rw [exprText_construct hk ht hd rfl, exprText_construct hk ht hd rfl, hcallee, htexts]
      | callable form =>
        cases form with
        | free => rw [exprText_function hk ht hd, exprText_function hk ht hd, hcallee, htexts]
        | member => rw [exprText_method hk ht hd, exprText_method hk ht hd, hself, htexts]
      | macroDef form =>
        -- The body is rendered in a scope that is made of the texts of the call alone.
        rw [exprText_expansion hk ht hd, exprText_expansion hk ht hd, hself, htexts]
      | _ => rw [exprText_call_refused hk ht hd rfl, exprText_call_refused hk ht hd rfl]

/-- Rendering depends on the namer only through the type references and the variables in
a subtree. -/
theorem exprText_congr {id : NodeId}
    (htype : ∀ node path parameters, t.Below id node →
      t.kind? node = some (.typeRef path parameters) → path.map first.name = path.map second.name)
    (hvar : ∀ node name definition, t.Below id node → t.kind? node = some (.var name definition) →
      t.varText o first node name definition = t.varText o second node name definition) :
    t.exprText o first expanding id = t.exprText o second expanding id := by
  induction hroom : t.room id using Nat.strongRecOn generalizing id with
  | ind room ih =>
    subst hroom
    cases hk : t.kind? id with
    | none => rw [exprText_outside hk, exprText_outside hk]
    | some kind =>
      -- A child has its own subtree, in which the namers agree as they do around it.
      have hchild : ∀ child ∈ kind.children,
          t.exprText o first expanding child = t.exprText o second expanding child := by
        intro child hc
        refine ih _ (room_lt_of_kind? hk hc) ?_ ?_ rfl
        · exact fun node path parameters hbelow => htype node path parameters (hbelow.of_child hk hc)
        · exact fun node name definition hbelow => hvar node name definition (hbelow.of_child hk hc)
      cases kind with
      | literal => rw [exprText_literal hk, exprText_literal hk]
      | list elements =>
        have htexts : (collect elements fun element _ => t.exprText o first expanding element) =
            collect elements fun element _ => t.exprText o second expanding element :=
          collect_congr hchild
        rw [exprText_list hk, exprText_list hk, htexts]
      | native parts =>
        have htexts : (collect parts fun part _ => t.exprText o first expanding part) =
            collect parts fun part _ => t.exprText o second expanding part :=
          collect_congr hchild
        rw [exprText_native hk, exprText_native hk, htexts]
      | typeRef path parameters =>
        rw [exprText_typeRef hk, exprText_typeRef hk, typeText_congr htype]
      | var name definition =>
        rw [exprText_var hk, exprText_var hk, hvar id name definition .refl hk]
      | attr receiver member =>
        rw [exprText_attr hk, exprText_attr hk, hchild receiver List.mem_cons_self]
      | call callee args =>
        refine exprText_call_congr hk (hchild callee List.mem_cons_self) ?_
          fun arg ha => hchild arg (List.mem_cons_of_mem callee ha)
        intro receiver hr
        obtain ⟨member, hattr⟩ := receiver?_eq_some_iff.1 hr
        have hcallee : callee ∈ (Kind.call callee args).children := List.mem_cons_self
        have hself : receiver ∈ (Kind.attr receiver member).children := List.mem_cons_self
        have hin : ∀ node, t.Below receiver node → t.Below id node :=
          fun node hbelow => (hbelow.of_child hattr hself).of_child hk hcallee
        refine ih _ (Nat.lt_trans (room_lt_of_receiver? hr) (room_lt_of_kind? hk hcallee)) ?_ ?_ rfl
        · exact fun node path parameters hbelow => htype node path parameters (hin node hbelow)
        · exact fun node name definition hbelow => hvar node name definition (hin node hbelow)
      | _ => rw [exprText_notExpression hk rfl, exprText_notExpression hk rfl]

/-! ## Texts that a scope changes -/

/-- The texts in a subtree that a scope can change: the names of variables bound to
declarations, and the segments of type references. -/
inductive Rewritable (t : Tree) (top : NodeId) : String → Prop where
  | var {id definition type : NodeId} {name declared : Name} {form : BindingForm}
      {value : Option NodeId} (hbelow : t.Below top id)
      (hk : t.kind? id = some (.var name (some definition)))
      (hd : t.kind? definition = some (.binding form type declared value)) :
      Rewritable t top name.text
  | type {id : NodeId} {path : List Name} {parameters : List NodeId} {segment : Name}
      (hbelow : t.Below top id) (hk : t.kind? id = some (.typeRef path parameters))
      (hs : segment ∈ path) : Rewritable t top segment.text

theorem name_congr {s₁ s₂ : Substitutions} {name : Name}
    (h : s₁.find? name.text = s₂.find? name.text) :
    (o.scoped s₁).name name = (o.scoped s₂).name name := by
  simp only [Namer.name, Namer.write, Namer.lookup, Options.scoped, h]

/-- A variable asks the scope only if it is bound to a declaration. -/
theorem varText_congr {s₁ s₂ : Substitutions} {id : NodeId} {name : Name}
    {definition : Option NodeId}
    (h : ∀ target form type declared value, definition = some target →
      t.kind? target = some (.binding form type declared value) →
      s₁.find? name.text = s₂.find? name.text) :
    t.varText o (o.scoped s₁) id name definition = t.varText o (o.scoped s₂) id name definition := by
  cases definition with
  | none => rfl
  | some target =>
    cases hd : t.kind? target with
    | none => simp only [varText, hd]
    | some kind =>
      cases kind with
      | binding form type declared value =>
        have hname := name_congr (o := o) (h target form type declared value rfl hd)
        simp only [varText, hd, Kind.bindingSite, hname]
      | callable form => cases form <;> simp only [varText, hd, Kind.bindingSite]
      | _ => simp only [varText, hd, Kind.bindingSite]

/-- Two scopes that agree on the variables bound to declarations and on the type names in a
subtree render it alike, to the same text or the same failure. -/
theorem exprText_scoped_congr (t : Tree) (o : Options) (expanding : List NodeId) (id : NodeId)
    (s₁ s₂ : Substitutions) (h : ∀ text, t.Rewritable id text → s₁.find? text = s₂.find? text) :
    t.exprText o (o.scoped s₁) expanding id = t.exprText o (o.scoped s₂) expanding id := by
  refine exprText_congr (fun node path parameters hbelow hk => ?_)
    fun node name definition hbelow hk => ?_
  · exact List.map_congr_left fun segment hs => name_congr (h _ (.type hbelow hk hs))
  · refine varText_congr fun target form type declared value hdefinition hd => ?_
    subst hdefinition
    exact h _ (.var hbelow hk hd)

/-- A macro whose parameter has the name of a class and whose body makes an object of that
class, a call of the macro, and a call of the class by a variable. -/
def shadowedClass : Tree where
  nodes := #[
    { kind := .root [⟨1⟩, ⟨2⟩, ⟨7⟩, ⟨10⟩] },
    { kind := .typeDef .classType { text := "Point" } [] [], parent := some ⟨0⟩ },
    { kind := .macroDef .free { text := "make" } [⟨3⟩] ⟨5⟩, parent := some ⟨0⟩ },
    { kind := .binding .plain ⟨4⟩ { text := "Point" } none, parent := some ⟨2⟩ },
    { kind := .typeRef [{ text := "int" }] [], parent := some ⟨3⟩ },
    { kind := .call ⟨6⟩ [], parent := some ⟨2⟩ },
    { kind := .typeRef [{ text := "Point" }] [], parent := some ⟨5⟩, resolved := some ⟨1⟩ },
    { kind := .call ⟨8⟩ [⟨9⟩], parent := some ⟨0⟩ },
    { kind := .var { text := "make" } (some ⟨2⟩), parent := some ⟨7⟩, resolved := some ⟨2⟩ },
    { kind := .literal .number "5", parent := some ⟨7⟩ },
    { kind := .call ⟨11⟩ [], parent := some ⟨0⟩ },
    { kind := .var { text := "Point" } (some ⟨1⟩), parent := some ⟨10⟩, resolved := some ⟨1⟩ }]
  root := ⟨0⟩
  wellFormed := wellFormed_of_ofParts (by decide)

/-- The subtree of a call without arguments whose callee is a leaf. -/
theorem eq_or_eq_of_below_call {call callee id : NodeId} (h : t.Below call id)
    (hk : t.kind? call = some (.call callee [])) (hleaf : t.children callee = []) :
    id = call ∨ id = callee := by
  induction h with
  | refl => exact .inl rfl
  | @tail owner child _ howns ih =>
    have hchild : child ∈ t.children owner := howns
    rcases ih with rfl | rfl
    · rw [children_of_kind? hk] at hchild
      exact .inr (List.mem_singleton.1 hchild)
    · rw [hleaf] at hchild
      cases hchild

/-- A variable that is bound to a class keeps its name, whatever the scope says. -/
theorem exprText_scoped_congr_shadowedClass :
    (∀ text, shadowedClass.Rewritable ⟨10⟩ text →
      (Table.empty : Substitutions).find? text =
        (Table.ofList [("Point", "5")] : Substitutions).find? text) ∧
      shadowedClass.exprText {} (Options.scoped {} Table.empty) [] ⟨10⟩ =
        shadowedClass.exprText {} (Options.scoped {} (Table.ofList [("Point", "5")])) [] ⟨10⟩ := by
  have hagree : ∀ text, shadowedClass.Rewritable ⟨10⟩ text →
      (Table.empty : Substitutions).find? text =
        (Table.ofList [("Point", "5")] : Substitutions).find? text := by
    rintro _ (⟨hbelow, hk, hd⟩ | ⟨hbelow, hk, hs⟩)
    · rcases eq_or_eq_of_below_call hbelow rfl rfl with rfl | rfl
      · cases hk
      · cases hk
        cases hd
    · rcases eq_or_eq_of_below_call hbelow rfl rfl with rfl | rfl <;> cases hk
  exact ⟨hagree, exprText_scoped_congr shadowedClass {} [] ⟨10⟩ _ _ hagree⟩

/-- A type reference does not: the body of the macro has no variable in it, and yet the
scope of an expansion writes the argument in the place of the class. -/
theorem typeName_rewritten :
    (∀ id name definition, shadowedClass.Below ⟨5⟩ id →
      shadowedClass.kind? id ≠ some (.var name definition)) ∧
    shadowedClass.exprText {} (Options.scoped {} Table.empty) [] ⟨5⟩ = .ok "new Point()" ∧
    shadowedClass.exprText {} (Options.scoped {} (Table.ofList [("Point", "5")])) [] ⟨5⟩ =
      .ok "new 5()" ∧
    shadowedClass.expr {} ⟨7⟩ = .ok "new 5()" := by
  refine ⟨fun id name definition hbelow hk => ?_, by cbv, by cbv, by cbv⟩
  rcases eq_or_eq_of_below_call hbelow rfl rfl with rfl | rfl <;> cases hk

end Tree

end Emitter
