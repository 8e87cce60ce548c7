import Emitter.Proofs.Outcome
import Emitter.Proofs.Tree.Kind
import Emitter.Render.Expr

/-!
# How expressions are rendered

`ExprRule t o frame writes text` lists the rules by which an activation of the
expression renderer makes a text, where `writes` says which texts the activations
that it starts have.  There is one rule for each way to succeed; `exprRule_of_exprStep`
says that there are no others.  What every rule passes on from the activations that
it starts holds of every text that a run makes (`exprText_induction`).
-/

namespace Emitter

namespace Tree

variable {t : Tree} {o : Options}

/-- The rules of expressions. -/
inductive ExprRule (t : Tree) (o : Options) (frame : Frame) (writes : Frame → String → Prop) :
    String → Prop where
  | literal {form : LiteralForm} {text : String}
      (hk : t.kind? frame.id = some (.literal form text)) : ExprRule t o frame writes text
  | list {elements : List NodeId} {texts : List String}
      (hk : t.kind? frame.id = some (.list elements))
      (h : List.Forall₂ (fun element => writes (frame.visit element)) elements texts) :
      ExprRule t o frame writes
        ("new java.util.ArrayList(java.util.Arrays.asList(new Object[]\x7b" ++
          ", ".intercalate texts ++ "\x7d))")
  | native {parts : List NodeId} {texts : List String}
      (hk : t.kind? frame.id = some (.native parts))
      (h : List.Forall₂ (fun part => writes (frame.visit part)) parts texts) :
      ExprRule t o frame writes (String.join texts)
  | type {path : List Name} {parameters : List NodeId} {text : String}
      (hk : t.kind? frame.id = some (.typeRef path parameters))
      (h : t.typeText frame.namer frame.id = .ok text) : ExprRule t o frame writes text
  | var {name : Name} {definition : Option NodeId} {text : String}
      (hk : t.kind? frame.id = some (.var name definition))
      (h : t.varText o frame.namer frame.id name definition = .ok text) :
      ExprRule t o frame writes text
  | member {receiver type : NodeId} {member : Name} {kind : Kind} {inner : String}
      (hk : t.kind? frame.id = some (.attr receiver member))
      (ht : t.resolution receiver = .ok type) (hd : t.kind? type = some kind)
      (hkind : kind.isObjectType = true) (h : writes (frame.visit receiver) inner) :
      ExprRule t o frame writes ("(" ++ inner ++ ")." ++ member.text)
  | packaged {receiver type memberType : NodeId} {member name : Name} {definitions : List NodeId}
      {kind : Kind} {inner : String} (hk : t.kind? frame.id = some (.attr receiver member))
      (ht : t.resolution receiver = .ok type)
      (hd : t.kind? type = some (.package name definitions))
      (hmember : t.resolution frame.id = .ok memberType) (hkind : t.kind? memberType = some kind)
      (h : writes (frame.visit receiver) inner) :
      ExprRule t o frame writes
        (if kind.isFunction then holderAccess o (some inner) member.text
          else inner ++ "." ++ member.text)
  | construct {callee type : NodeId} {args : List NodeId} {kind : Kind} {head : String}
      {texts : List String} (hk : t.kind? frame.id = some (.call callee args))
      (ht : t.resolution callee = .ok type) (hd : t.kind? type = some kind)
      (hkind : kind.isObjectType = true) (h : writes (frame.visit callee) head)
      (hargs : List.Forall₂ (fun arg => writes (frame.visit arg)) args texts) :
      ExprRule t o frame writes ("new " ++ head ++ "(" ++ ", ".intercalate texts ++ ")")
  | function {callee type : NodeId} {args : List NodeId} {kind : Kind} {head : String}
      {texts : List String} (hk : t.kind? frame.id = some (.call callee args))
      (ht : t.resolution callee = .ok type) (hd : t.kind? type = some kind)
      (hkind : kind.isFunction = true) (h : writes (frame.visit callee) head)
      (hargs : List.Forall₂ (fun arg => writes (frame.visit arg)) args texts) :
      ExprRule t o frame writes (head ++ "(" ++ ", ".intercalate texts ++ ")")
  | method {callee type receiver : NodeId} {args params : List NodeId} {name : Name}
      {returnType body : Option NodeId} {inner : String} {texts : List String}
      (hk : t.kind? frame.id = some (.call callee args)) (ht : t.resolution callee = .ok type)
      (hd : t.kind? type = some (.callable .member name returnType params body))
      (hr : t.receiver? callee = some receiver) (h : writes (frame.visit receiver) inner)
      (hargs : List.Forall₂ (fun arg => writes (frame.visit arg)) args texts) :
      ExprRule t o frame writes
        ("(" ++ inner ++ ")." ++ name.text ++ "(" ++ ", ".intercalate texts ++ ")")
  | expansion {callee type body : NodeId} {args params : List NodeId} {form : CallableForm}
      {name : Name} {receiver : Option String} {texts : List String} {scope : Substitutions}
      {text : String} (hk : t.kind? frame.id = some (.call callee args))
      (ht : t.resolution callee = .ok type)
      (hd : t.kind? type = some (.macroDef form name params body))
      (hfree : form = .free → receiver = none)
      (hmember : form = .member → ∃ id inner, t.receiver? callee = some id ∧
        writes (frame.visit id) inner ∧ receiver = some inner)
      (hnew : type ∉ frame.expanding)
      (hargs : List.Forall₂ (fun arg => writes (frame.visit arg)) args texts)
      (hlength : params.length ≤ texts.length)
      (hscope : t.expansionScope o receiver params texts = .ok scope)
      (h : writes { namer := o.scoped scope, expanding := type :: frame.expanding, id := body }
        text) :
      ExprRule t o frame writes text

theorem receiverText_eq_ok_iff {id callee : NodeId} {name : Name} {text : String}
    {render : (receiver : NodeId) → t.receiver? callee = some receiver → Rendered String} :
    t.receiverText id callee name render = .ok text ↔
      ∃ receiver hr, render receiver hr = .ok text := by
  unfold receiverText
  split
  · next receiver hr =>
    constructor
    · exact fun h => ⟨receiver, hr, h⟩
    · rintro ⟨other, hother, h⟩
      cases hr.symm.trans hother
      exact h
  · next hr =>
    constructor
    · intro h
      cases h
    · rintro ⟨other, hother, _⟩
      cases hr.symm.trans hother

/-- A step that succeeds follows one of the rules. -/
theorem exprRule_of_exprStep {frame : Frame} {text : String} {writes : Frame → String → Prop}
    {render : (inner : Frame) → t.Calls o frame inner → Rendered String}
    (hwrites : ∀ inner hc text, render inner hc = .ok text → writes inner text)
    (h : t.exprStep o frame render = .ok text) : t.ExprRule o frame writes text := by
  unfold exprStep at h
  split at h
  · cases h
  · next hk =>
    cases h
    exact .literal hk
  · next elements hk =>
    obtain ⟨texts, htexts, he⟩ := bind_eq_ok_iff.1 h
    cases he
    exact .list hk ((forall₂_of_collect_eq_ok htexts).imp
      fun _ _ ⟨_, htext⟩ => hwrites _ _ _ htext)
  · next parts hk =>
    obtain ⟨texts, htexts, he⟩ := bind_eq_ok_iff.1 h
    cases he
    exact .native hk ((forall₂_of_collect_eq_ok htexts).imp
      fun _ _ ⟨_, htext⟩ => hwrites _ _ _ htext)
  · next hk => exact .type hk h
  · next hk => exact .var hk h
  · next receiver member hk =>
    obtain ⟨type, ht, h⟩ := bind_eq_ok_iff.1 h
    split at h
    · cases h
    case h_2 hd | h_3 hd =>
      obtain ⟨inner, hinner, he⟩ := bind_eq_ok_iff.1 h
      cases he
      exact .member hk ht hd rfl (hwrites _ _ _ hinner)
    case h_4 hd =>
      obtain ⟨inner, hinner, h⟩ := bind_eq_ok_iff.1 h
      obtain ⟨memberType, hmember, h⟩ := bind_eq_ok_iff.1 h
      have hrule : ∀ kind, t.kind? memberType = some kind → t.ExprRule o frame writes _ :=
        fun kind hkind => .packaged hk ht hd hmember hkind (hwrites _ _ _ hinner)
      split at h
      · cases h
      · next hkind =>
        cases h
        exact hrule _ hkind
      · next kind hfree hkind =>
        cases h
        have hother : kind.isFunction = false := by
          unfold Kind.isFunction
          split
          · exact (hfree _ _ _ _ rfl).elim
          · rfl
        have hdotted := hrule kind hkind
        rwa [hother, if_neg Bool.false_ne_true] at hdotted
    · cases h
  · next callee args hk =>
    split at h
    · cases h
    · next type ht =>
      have hargs : ∀ {texts : List String},
          (collect args fun arg ha => render (frame.visit arg) (.arg hk ha)) = .ok texts →
          List.Forall₂ (fun arg => writes (frame.visit arg)) args texts :=
        fun htexts => (forall₂_of_collect_eq_ok htexts).imp
          fun _ _ ⟨_, htext⟩ => hwrites _ _ _ htext
      split at h
      · cases h
      case h_2 hd | h_3 hd =>
        obtain ⟨head, hhead, h⟩ := bind_eq_ok_iff.1 h
        obtain ⟨texts, htexts, he⟩ := bind_eq_ok_iff.1 h
        cases he
        exact .construct hk ht hd rfl (hwrites _ _ _ hhead) (hargs htexts)
      case h_4 hd =>
        obtain ⟨head, hhead, h⟩ := bind_eq_ok_iff.1 h
        obtain ⟨texts, htexts, he⟩ := bind_eq_ok_iff.1 h
        cases he
        exact .function hk ht hd rfl (hwrites _ _ _ hhead) (hargs htexts)
      case h_5 hd =>
        obtain ⟨inner, hinner, h⟩ := bind_eq_ok_iff.1 h
        obtain ⟨texts, htexts, he⟩ := bind_eq_ok_iff.1 h
        cases he
        obtain ⟨receiver, hr, hreceiver⟩ := receiverText_eq_ok_iff.1 hinner
        exact .method hk ht hd hr (hwrites _ _ _ hreceiver) (hargs htexts)
      case h_6 form name params body hd =>
        obtain ⟨receiver, hreceiver, h⟩ := bind_eq_ok_iff.1 h
        split at h
        · cases h
        · next hnew =>
          obtain ⟨texts, htexts, h⟩ := bind_eq_ok_iff.1 h
          split at h
          · cases h
          · next hlength =>
            obtain ⟨scope, hscope, h⟩ := bind_eq_ok_iff.1 h
            refine .expansion hk ht hd ?_ ?_ hnew (hargs htexts) (Nat.not_lt.1 hlength) hscope
              (hwrites _ _ _ h)
            · rintro rfl
              cases hreceiver
              rfl
            · rintro rfl
              obtain ⟨inner, hinner, rfl⟩ := map_eq_ok_iff.1 hreceiver
              obtain ⟨id, hr, hid⟩ := receiverText_eq_ok_iff.1 hinner
              exact ⟨id, inner, hr, hwrites _ _ _ hid, rfl⟩
      · cases h
  · cases h

/-- What every rule passes on holds of every text that is rendered. -/
theorem exprText_induction {motive : Frame → String → Prop}
    (step : ∀ frame text, t.ExprRule o frame motive text → motive frame text)
    {namer : Namer} {expanding : List NodeId} {id : NodeId} {text : String}
    (h : t.exprText o namer expanding id = .ok text) : motive { namer, expanding, id } text := by
  induction namer, expanding, id using exprText.induct t o generalizing text with
  | case1 namer expanding id ih =>
    rw [exprText] at h
    exact step _ _ (exprRule_of_exprStep (fun inner hc text hinner => ih inner hc hinner) h)

end Tree

end Emitter
