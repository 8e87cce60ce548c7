import Emitter.Proofs.Render.Inline
import Emitter.Proofs.Render.Scope

/-!
# Calls of macros

What a call of a macro is rendered as, without the steps that lead there.

* `expansionFailures` lists everything that keeps a call from being replaced, in the order in
  which it is met: the receiver, the macro itself, the arguments, their number and the names of
  the parameters.  Where the list is not empty the call fails in the way of its first entry.
* Where it is empty the call is the body of the macro.  `Options.meaning` says what a text in the
  body stands for: the last parameter of that name, then the receiver, then the built-in name.
  Any namer with these meanings gives the text of the call.

The meanings are made of texts that the caller rendered.  So the names in force around a call
show in its text only through the texts of its receiver and its arguments.
-/

namespace Emitter

/-- What a text stands for in the body of a macro: the argument of the last parameter with that
name, else the receiver, if the text is the name for it, else what the built-in table says. -/
def Options.meaning (o : Options) (bound : List (String × String)) (receiver : Option String)
    (text : String) : Option String :=
  ((bound.reverse.find? fun pair => pair.1 = text).map (·.2)).or
    ((receiver.filter fun _ => text = o.selfName).or (o.builtins.find? text))

/-- The scope of an expansion gives every text its meaning. -/
theorem Options.lookup_scoped (o : Options) (bound : List (String × String))
    (receiver : Option String) (text : String) :
    (o.scoped (Table.ofList
      ((receiver.map fun inner => (o.selfName, inner)).toList ++ bound))).lookup text =
      o.meaning bound receiver text := by
  have hkey : (fun pair : String × String => compare text pair.1 == .eq) =
      fun pair => decide (pair.1 = text) := by
    funext pair
    rw [Bool.eq_iff_iff, beq_iff_eq, Std.LawfulEqOrd.compare_eq_iff_eq, decide_eq_true_iff, eq_comm]
  have hself : ((receiver.map fun inner => (o.selfName, inner)).toList.reverse.find?
      fun pair => pair.1 = text).map (·.2) = receiver.filter fun _ => text = o.selfName := by
    cases receiver with
    | none => rfl
    | some inner =>
      by_cases htext : text = o.selfName
      · simp [htext, Option.filter]
      · simp [htext, Ne.symm htext]
  show ((Table.ofList _).find? text).or (o.builtins.find? text) = _
  rw [Table.find?_ofList, hkey, List.reverse_append, List.find?_append, Option.map_or, hself,
    Option.or_assoc]
  rfl

namespace Tree

variable {t : Tree} {o : Options} {namer : Namer} {expanding : List NodeId} {id callee : NodeId}
  {args : List NodeId} {m : MacroDef}

/-! ## What keeps a call from being replaced -/

/-- The failure of the receiver, which a macro of a type has to have. -/
def receiverFailure? (t : Tree) (o : Options) (namer : Namer) (expanding : List NodeId)
    (id callee : NodeId) (m : MacroDef) : Option Halt :=
  match m.form with
  | .free => none
  | .member =>
    match t.receiver? callee with
    | some receiver => failure? (t.exprText o namer expanding receiver)
    | none => some (.defect (.missingReceiver id m.name.text (t.span id)))

/-- The failure of a parameter that has no name. -/
def unnamed? (t : Tree) (param : NodeId) : Option Halt :=
  match t.kind? param with
  | some kind => if kind.name? = none then some (t.unhandled param kind .macroParameter) else none
  | none => none

/-- Everything that keeps a call from being replaced by the body of a macro, in the order in which
it is met. -/
def expansionFailures (t : Tree) (o : Options) (namer : Namer) (expanding : List NodeId)
    (id callee : NodeId) (args : List NodeId) (m : MacroDef) : List Halt :=
  (t.receiverFailure? o namer expanding id callee m).toList ++
  (if m.id ∈ expanding then [.defect (.recursiveMacro id m.name.text (t.span id))] else []) ++
  (args.filterMap fun arg => failure? (t.exprText o namer expanding arg)) ++
  (if args.length < m.params.length then
    [.defect (.macroArity id m.name.text m.params.length args.length (t.span id))] else []) ++
  m.params.filterMap t.unnamed?

/-- What a call passes to a macro when nothing keeps it from being replaced: the names of the
parameters, the texts of the arguments and, to a macro of a type, the text of the receiver. -/
structure Passes (t : Tree) (o : Options) (namer : Namer) (expanding : List NodeId)
    (callee : NodeId) (args : List NodeId) (m : MacroDef) (names texts : List String)
    (receiver : Option String) : Prop where
  names : List.Forall₂
    (fun param name => ((t.kind? param).bind Kind.name?).map Name.text = some name) m.params names
  texts : List.Forall₂ (fun arg text => t.exprText o namer expanding arg = .ok text) args texts
  free : m.form = .free → receiver = none
  member : m.form = .member → ∃ node text, t.receiver? callee = some node ∧
    t.exprText o namer expanding node = .ok text ∧ receiver = some text

/-! ## The steps of a call -/

/-- The text of the receiver of a macro call, where the macro has one. -/
def macroReceiver (t : Tree) (o : Options) (namer : Namer) (expanding : List NodeId)
    (id callee : NodeId) (m : MacroDef) : Rendered (Option String) :=
  match m.form with
  | .free => .ok none
  | .member =>
    (t.receiverText id callee m.name fun receiver _ =>
      t.exprText o namer expanding receiver).map some

theorem failure?_macroReceiver :
    failure? (t.macroReceiver o namer expanding id callee m) =
      t.receiverFailure? o namer expanding id callee m := by
  cases hform : m.form with
  | free => simp [macroReceiver, receiverFailure?, hform, failure?]
  | member =>
    cases hr : t.receiver? callee with
    | none =>
      simp [macroReceiver, receiverFailure?, hform, hr, receiverText_of_none hr, Except.map,
        failure?]
    | some receiver =>
      simp only [macroReceiver, receiverFailure?, hform, hr, receiverText_of_some hr]
      cases t.exprText o namer expanding receiver <;> rfl

theorem macroReceiver_of_free (hform : m.form = .free) :
    t.macroReceiver o namer expanding id callee m = .ok none := by
  rw [macroReceiver, hform]

theorem exists_of_macroReceiver_eq_ok {receiver : Option String}
    (h : t.macroReceiver o namer expanding id callee m = .ok receiver) (hform : m.form = .member) :
    ∃ node text, t.receiver? callee = some node ∧ t.exprText o namer expanding node = .ok text ∧
      receiver = some text := by
  rw [macroReceiver, hform] at h
  obtain ⟨text, htext, rfl⟩ := map_eq_ok_iff.1 h
  obtain ⟨node, hr, hnode⟩ := receiverText_eq_ok_iff.1 htext
  exact ⟨node, text, hr, hnode, rfl⟩

theorem macroReceiver_congr {first second : Namer}
    (h : m.form = .member → ∀ receiver, t.receiver? callee = some receiver →
      t.exprText o first expanding receiver = t.exprText o second expanding receiver) :
    t.macroReceiver o first expanding id callee m =
      t.macroReceiver o second expanding id callee m := by
  cases hform : m.form with
  | free => rw [macroReceiver_of_free hform, macroReceiver_of_free hform]
  | member =>
    cases hr : t.receiver? callee with
    | none => simp only [macroReceiver, hform, receiverText_of_none hr]
    | some receiver =>
      simp only [macroReceiver, hform, receiverText_of_some hr, h hform receiver hr]

/-- The parameters of a macro are nodes, so a name is all that one can lack. -/
theorem failure?_parameterName {param : NodeId} (hd : t.kind? m.id =
    some (.macroDef m.form m.name m.params m.body)) (hp : param ∈ m.params) :
    t.unnamed? param = failure? (t.parameterName param) := by
  have hchild : param ∈ (Kind.macroDef m.form m.name m.params m.body).children := by
    simp [Kind.children, hp]
  obtain ⟨kind, hk⟩ := exists_kind? (index_lt_of_child hd hchild)
  simp only [unnamed?, parameterName, hk]
  cases kind.name? <;> simp [failure?]

theorem parameterName_eq_ok_iff {param : NodeId} {name : String} :
    t.parameterName param = .ok name ↔
      ((t.kind? param).bind Kind.name?).map Name.text = some name := by
  unfold parameterName
  cases t.kind? param with
  | none => simp
  | some kind => cases hname : kind.name? <;> simp [hname]

/-- The steps of a call of a macro. -/
theorem exprText_macroCall (hk : t.kind? id = some (.call callee args))
    (hm : t.macroOf? callee = some m) :
    t.exprText o namer expanding id = (do
      let receiver ← t.macroReceiver o namer expanding id callee m
      if m.id ∈ expanding then
        .error (.defect (.recursiveMacro id m.name.text (t.span id)))
      else
        let texts ← collect args fun arg _ => t.exprText o namer expanding arg
        if texts.length < m.params.length then
          .error (.defect (.macroArity id m.name.text m.params.length texts.length (t.span id)))
        else
          let scope ← t.expansionScope o receiver m.params texts
          t.exprText o (o.scoped scope) (m.id :: expanding) m.body) := by
  obtain ⟨hr, hd⟩ := macroOf?_eq_some_iff.1 hm
  obtain ⟨type, form, name, params, body⟩ := m
  cases form <;> exact exprText_expansion hk (resolution_eq_ok_iff.2 hr) hd

/-- A call fails in the way of the first thing that keeps it from being replaced.  Where there is
none it has passed every step, and the body is rendered in the scope of the expansion. -/
theorem exprText_macroCall_cases (o : Options) (namer : Namer) (expanding : List NodeId)
    (hk : t.kind? id = some (.call callee args)) (hm : t.macroOf? callee = some m) :
    (∃ halt, (t.expansionFailures o namer expanding id callee args m).head? = some halt ∧
      t.exprText o namer expanding id = .error halt) ∨
    ((t.expansionFailures o namer expanding id callee args m).head? = none ∧
      ∃ receiver texts names, t.macroReceiver o namer expanding id callee m = .ok receiver ∧
        (collect args fun arg _ => t.exprText o namer expanding arg) = .ok texts ∧
        (collect m.params fun param _ => t.parameterName param) = .ok names ∧
        t.exprText o namer expanding id = t.exprText o
          (o.scoped (Table.ofList
            ((receiver.map fun inner => (o.selfName, inner)).toList ++ names.zip texts)))
          (m.id :: expanding) m.body) := by
  have hd := (macroOf?_eq_some_iff.1 hm).2
  have hnames : (m.params.filterMap t.unnamed?).head? =
      failure? (collect m.params fun param _ => t.parameterName param) := by
    rw [failure?_collect, List.filterMap_congr fun param hp => failure?_parameterName hd hp]
  rw [exprText_macroCall hk hm]
  simp only [expansionFailures, List.head?_append, ← failure?_macroReceiver, ← failure?_collect,
    hnames]
  -- The list has the failures in the order of the steps, so each step is asked once all before it
  -- have passed.
  cases t.macroReceiver o namer expanding id callee m with
  | error halt => exact .inl ⟨halt, rfl, rfl⟩
  | ok receiver =>
    by_cases hnew : m.id ∈ expanding
    · refine .inl ⟨.defect (.recursiveMacro id m.name.text (t.span id)), ?_, ?_⟩
      · simp [hnew, failure?]
      · simp [hnew, bind, Except.bind]
    cases htexts : collect args fun arg _ => t.exprText o namer expanding arg with
    | error halt =>
      refine .inl ⟨halt, ?_, ?_⟩
      · simp [hnew, failure?]
      · simp [hnew, bind, Except.bind]
    | ok texts =>
      have hlength := length_of_collect_eq_ok htexts
      by_cases hfew : args.length < m.params.length
      · refine .inl ⟨.defect (.macroArity id m.name.text m.params.length args.length (t.span id)),
          ?_, ?_⟩
        · simp [hnew, hfew, failure?]
        · simp [hnew, hfew, hlength, bind, Except.bind]
      cases hparams : collect m.params fun param _ => t.parameterName param with
      | error halt =>
        refine .inl ⟨halt, ?_, ?_⟩
        · simp [hnew, hfew, failure?]
        · simp [hnew, hfew, hlength, expansionScope, hparams, bind, Except.bind]
      | ok names =>
        refine .inr ⟨?_, receiver, texts, names, rfl, rfl, rfl, ?_⟩
        · simp [hnew, hfew, failure?]
        · simp [hnew, hfew, hlength, expansionScope, hparams, bind, Except.bind, pure, Except.pure]

/-- Rendering asks a namer for nothing but what texts stand for. -/
theorem exprText_of_lookup {first second : Namer}
    (h : ∀ text, first.lookup text = second.lookup text) (id : NodeId) :
    t.exprText o first expanding id = t.exprText o second expanding id := by
  have hname : first.name = second.name := by
    funext name
    rw [Namer.name, Namer.name, Namer.write, Namer.write, h]
  refine exprText_congr ?_ ?_
  · intro _ _ _ _ _
    rw [hname]
  · intro _ _ _ _ _
    unfold varText
    rw [hname]

/-! ## The text of a call -/

/-- A call of a macro fails in the way of the first thing that keeps it from being replaced.  If
there is none, the call is written as the body of the macro under any namer that gives every text
the meaning it has there, and there is a scope that does.  The names in force around the call
change its text only where they change those of its receiver or its arguments. -/
theorem exprText_call_macro (t : Tree) (o : Options) (namer : Namer) (expanding : List NodeId)
    (id callee : NodeId) (args : List NodeId) (m : MacroDef)
    (hk : t.kind? id = some (.call callee args)) (hm : t.macroOf? callee = some m) :
    ((∃ halt rest, t.expansionFailures o namer expanding id callee args m = halt :: rest ∧
        t.exprText o namer expanding id = .error halt) ∨
      (t.expansionFailures o namer expanding id callee args m = [] ∧
        ∃ names texts receiver, t.Passes o namer expanding callee args m names texts receiver ∧
          (∃ scope, ∀ text,
            (o.scoped scope).lookup text = o.meaning (names.zip texts) receiver text) ∧
          ∀ inner : Namer,
            (∀ text, inner.lookup text = o.meaning (names.zip texts) receiver text) →
            t.exprText o namer expanding id = t.exprText o inner (m.id :: expanding) m.body)) ∧
    ∀ other : Namer,
      (m.form = .member → ∀ receiver, t.receiver? callee = some receiver →
        t.exprText o other expanding receiver = t.exprText o namer expanding receiver) →
      (∀ arg ∈ args, t.exprText o other expanding arg = t.exprText o namer expanding arg) →
      t.exprText o other expanding id = t.exprText o namer expanding id := by
  constructor
  · rcases exprText_macroCall_cases o namer expanding hk hm with ⟨halt, hfailures, htext⟩ |
      ⟨hfailures, receiver, texts, names, hreceiver, htexts, hnames, htext⟩
    · obtain ⟨rest, hrest⟩ := List.head?_eq_some_iff.1 hfailures
      exact .inl ⟨halt, rest, hrest, htext⟩
    · refine .inr ⟨List.head?_eq_none_iff.1 hfailures, names, texts, receiver, ?_,
        ⟨_, o.lookup_scoped (names.zip texts) receiver⟩, ?_⟩
      · exact
          { names := (collect_eq_ok_iff.1 hnames).imp fun _ _ => parameterName_eq_ok_iff.1
            texts := collect_eq_ok_iff.1 htexts
            free := fun hform => by
              rw [macroReceiver_of_free hform] at hreceiver
              exact (Except.ok.inj hreceiver).symm
            member := exists_of_macroReceiver_eq_ok hreceiver }
      · intro inner hinner
        rw [htext]
        refine exprText_of_lookup (fun text => ?_) m.body
        rw [hinner, o.lookup_scoped]
  · intro other hreceiver hargs
    have htexts : (collect args fun arg _ => t.exprText o other expanding arg) =
        collect args fun arg _ => t.exprText o namer expanding arg := collect_congr hargs
    rw [exprText_macroCall hk hm, exprText_macroCall hk hm, macroReceiver_congr hreceiver, htexts]

/-- A method macro with two parameters of one name, and a call of it with an argument more than
it has parameters. -/
def repeatedParameter : Tree where
  nodes := #[
    { kind := .root [⟨1⟩, ⟨11⟩, ⟨13⟩] },
    { kind := .typeDef .classType { text := "C" } [] [⟨2⟩], parent := some ⟨0⟩ },
    { kind := .macroDef .member { text := "plus" } [⟨3⟩, ⟨5⟩] ⟨7⟩, parent := some ⟨1⟩ },
    { kind := .binding .plain ⟨4⟩ { text := "x" } none, parent := some ⟨2⟩ },
    { kind := .typeRef [{ text := "int" }] [], parent := some ⟨3⟩ },
    { kind := .binding .plain ⟨6⟩ { text := "x" } none, parent := some ⟨2⟩ },
    { kind := .typeRef [{ text := "int" }] [], parent := some ⟨5⟩ },
    { kind := .native [⟨8⟩, ⟨9⟩, ⟨10⟩], parent := some ⟨2⟩ },
    { kind := .var { text := "self" } (some ⟨11⟩), parent := some ⟨7⟩ },
    { kind := .literal .fixed " + ", parent := some ⟨7⟩ },
    { kind := .var { text := "x" } (some ⟨3⟩), parent := some ⟨7⟩ },
    { kind := .binding .plain ⟨12⟩ { text := "self" } none, parent := some ⟨0⟩ },
    { kind := .typeRef [{ text := "C" }] [], parent := some ⟨11⟩ },
    { kind := .call ⟨14⟩ [⟨16⟩, ⟨17⟩, ⟨18⟩], parent := some ⟨0⟩ },
    { kind := .attr ⟨15⟩ { text := "plus" }, parent := some ⟨13⟩, resolved := some ⟨2⟩ },
    { kind := .literal .number "1", parent := some ⟨14⟩ },
    { kind := .literal .number "2", parent := some ⟨13⟩ },
    { kind := .literal .number "3", parent := some ⟨13⟩ },
    { kind := .literal .number "4", parent := some ⟨13⟩ }]
  root := ⟨0⟩
  wellFormed := wellFormed_of_ofParts (by decide)

/-- The macro of `repeatedParameter`. -/
def repeatedParameterMacro : MacroDef where
  id := ⟨2⟩
  form := .member
  name := { text := "plus" }
  params := [⟨3⟩, ⟨5⟩]
  body := ⟨7⟩

/-- Of the two parameters the second counts, and the last argument is rendered for nothing. -/
theorem exprText_call_macro_repeatedParameter :
    repeatedParameter.macroOf? ⟨14⟩ = some repeatedParameterMacro ∧
      repeatedParameter.exprText {} Namer.plain [] ⟨13⟩ = .ok "1 + 3" ∧
      ∃ names texts receiver,
        repeatedParameter.Passes {} Namer.plain [] ⟨14⟩ [⟨16⟩, ⟨17⟩, ⟨18⟩] repeatedParameterMacro
          names texts receiver ∧
        ∀ inner : Namer,
          (∀ text, inner.lookup text =
            ({} : Options).meaning (names.zip texts) receiver text) →
          repeatedParameter.exprText {} inner [⟨2⟩] ⟨7⟩ = .ok "1 + 3" := by
  have hk : repeatedParameter.kind? ⟨13⟩ = some (.call ⟨14⟩ [⟨16⟩, ⟨17⟩, ⟨18⟩]) := rfl
  have hm : repeatedParameter.macroOf? ⟨14⟩ = some repeatedParameterMacro := rfl
  have htext : repeatedParameter.exprText {} Namer.plain [] ⟨13⟩ = .ok "1 + 3" := by cbv
  refine ⟨hm, htext, ?_⟩
  obtain ⟨⟨halt, rest, _, herror⟩ | ⟨_, names, texts, receiver, hpasses, _, hbody⟩, _⟩ :=
    exprText_call_macro repeatedParameter {} Namer.plain [] ⟨13⟩ ⟨14⟩ [⟨16⟩, ⟨17⟩, ⟨18⟩]
      repeatedParameterMacro hk hm
  · cases htext.symm.trans herror
  · exact ⟨names, texts, receiver, hpasses, fun inner h => (hbody inner h).symm.trans htext⟩

end Tree

end Emitter
