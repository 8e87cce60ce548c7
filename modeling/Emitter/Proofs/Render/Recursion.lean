import Emitter.Proofs.Render.Diagnosis
import Emitter.Proofs.Render.Expansion

/-!
# Macros that expand inside themselves

The renderer keeps a list of the macros under expansion and refuses to expand a macro
that is on it.  This module says that it refuses no tree without reason.

`Tree.Invokes` is the call graph of macros: one macro invokes another when a call in its
body resolves to the other.  The list of macros under expansion is a path in this graph,
and the node of an activation is in the body of the macro at the end of the path
(`Frame.Nested`).  Arguments and receivers are rendered outside the expansion that they
are passed to, so a step that goes to one of them stays in the same body and keeps the
path.  A macro that is met again on the path is then on a cycle of the graph.
-/

namespace Emitter

open Relation (ReflTransGen TransGen)

namespace Tree

variable {t : Tree} {o : Options}

/-! ## The call graph -/

/-- A node is in the subtree of the body of a macro. -/
def InBody (t : Tree) (expanded id : NodeId) : Prop :=
  ∃ form name params body,
    t.kind? expanded = some (.macroDef form name params body) ∧ t.Below body id

/-- A node is a call whose callee resolves to a macro. -/
def CallsMacro (t : Tree) (call target : NodeId) : Prop :=
  ∃ callee args form name params body,
    t.kind? call = some (.call callee args) ∧ t.resolved? callee = some target ∧
      t.kind? target = some (.macroDef form name params body)

/-- There is a call of a macro in the body of another. -/
def Invokes (t : Tree) (caller target : NodeId) : Prop :=
  ∃ call, t.InBody caller call ∧ t.CallsMacro call target

theorem InBody.child {expanded id child : NodeId} {kind : Kind} (h : t.InBody expanded id)
    (hk : t.kind? id = some kind) (hc : child ∈ kind.children) : t.InBody expanded child := by
  obtain ⟨form, name, params, body, hd, hbelow⟩ := h
  exact ⟨form, name, params, body, hd, hbelow.child hk hc⟩

theorem InBody.receiver {expanded callee receiver : NodeId} (h : t.InBody expanded callee)
    (hr : t.receiver? callee = some receiver) : t.InBody expanded receiver := by
  obtain ⟨member, hattr⟩ := receiver?_eq_some_iff.1 hr
  exact h.child hattr List.mem_cons_self

/-! ## Expansions form a path -/

/-- The macros under expansion invoke each other, and the activation is in the body of
the innermost one. -/
structure Frame.Nested (t : Tree) (frame : Frame) : Prop where
  path : frame.expanding.IsChain fun inner outer => t.Invokes outer inner
  within : ∀ expanded ∈ frame.expanding.head?, t.InBody expanded frame.id

theorem Frame.Nested.start (namer : Namer) (id : NodeId) :
    Frame.Nested t { namer, expanding := [], id } where
  path := .nil
  within := by simp

theorem Frame.Nested.step {frame inner : Frame} (h : frame.Nested t)
    (hc : t.Calls o frame inner) : inner.Nested t := by
  cases hc with
  | child hk hc => exact ⟨h.path, fun expanded he => (h.within expanded he).child hk hc⟩
  | receiver hk hr =>
    refine ⟨h.path, fun expanded he => InBody.receiver ?_ hr⟩
    exact (h.within expanded he).child hk List.mem_cons_self
  | @body callee type body args params form name scope hk ht hd hnew =>
    refine ⟨List.isChain_cons.2 ⟨fun outer he => ?_, h.path⟩, fun expanded he => ?_⟩
    · exact ⟨frame.id, h.within outer he, callee, args, form, name, params, body, hk,
        resolution_eq_ok_iff.1 ht, hd⟩
    · cases he
      exact ⟨form, name, params, body, hd, .refl⟩

theorem Frame.Nested.run {frame inner : Frame} (h : frame.Nested t)
    (hr : t.Reaches o frame inner) : inner.Nested t := by
  induction hr with
  | refl => exact h
  | tail _ hc ih => exact ih.step hc

/-- Every macro under expansion leads to the innermost one. -/
theorem reflTransGen_of_mem_path {inner : NodeId} {rest : List NodeId}
    (h : (inner :: rest).IsChain fun inner outer => t.Invokes outer inner) {outer : NodeId}
    (hmem : outer ∈ inner :: rest) : ReflTransGen t.Invokes outer inner := by
  induction rest generalizing inner with
  | nil =>
    rw [List.mem_singleton.1 hmem]
  | cons next rest ih =>
    obtain ⟨hstep, hrest⟩ := List.isChain_cons_cons.1 h
    rcases List.mem_cons.1 hmem with rfl | hmem
    · exact .refl
    · exact (ih hrest hmem).tail hstep

/-! ## Refused expansions -/

/-- The macro that a call resolves to is on a cycle, and the call is in the body of a
macro on that cycle. -/
def OnCycle (t : Tree) (call : NodeId) : Prop :=
  ∃ target, t.CallsMacro call target ∧ TransGen t.Invokes target target ∧
    ∃ caller, t.InBody caller call ∧ ReflTransGen t.Invokes target caller ∧
      TransGen t.Invokes caller target

/-- A report of a refused expansion is about a cycle. -/
def ReportsCycle (t : Tree) : RenderError → Prop
  | .recursiveMacro call _ _ => t.OnCycle call
  | _ => True

/-- A refused expansion is that of a macro which is being expanded. -/
theorem ExprFault.mem_expanding {frame : Frame} {call : NodeId} {text : String} {span : Span}
    (h : t.ExprFault frame (.defect (.recursiveMacro call text span))) :
    call = frame.id ∧ ∃ target ∈ frame.expanding, t.CallsMacro call target := by
  have hresolution : ∀ id, t.resolution id ≠ .error (.defect (.recursiveMacro call text span)) := by
    intro id he
    rcases resolution_error he with h | ⟨_, _, _, h⟩ <;> cases h
  cases h with
  | type hk h =>
    obtain ⟨_, _, _, _, _, h⟩ := typeText_error (index_lt_of_kind? hk) h
    cases h
  | receiverType hk h => exact absurd h (hresolution _)
  | memberType hk ht hd h => exact absurd h (hresolution _)
  | calleeType hk h => exact absurd h (hresolution _)
  | recursive hk ht hd hmem =>
    exact ⟨rfl, _, hmem, _, _, _, _, _, _, hk, resolution_eq_ok_iff.1 ht, hd⟩
  | parameter _ _ _ _ h => rcases parameterName_error h with h | ⟨_, _, _, h⟩ <;> cases h

/-- An expansion that is refused in an activation of a run is on a cycle. -/
theorem Frame.Nested.onCycle {frame : Frame} {call : NodeId} {text : String} {span : Span}
    (hnested : frame.Nested t)
    (h : t.ExprFault frame (.defect (.recursiveMacro call text span))) : t.OnCycle call := by
  obtain ⟨rfl, target, hmem, hcalls⟩ := h.mem_expanding
  have hpath := hnested.path
  have hwithin := hnested.within
  cases hlist : frame.expanding with
  | nil =>
    rw [hlist] at hmem
    cases hmem
  | cons caller rest =>
    rw [hlist] at hmem hpath hwithin
    have hbody : t.InBody caller frame.id := hwithin caller rfl
    have hdown : ReflTransGen t.Invokes target caller := reflTransGen_of_mem_path hpath hmem
    have hback : t.Invokes caller target := ⟨frame.id, hbody, hcalls⟩
    exact ⟨target, hcalls, .tail' hdown hback, caller, hbody, hdown, .single hback⟩

theorem onCycle_of_raises {call : NodeId} {text : String} {span : Span}
    (h : t.Raises o (.recursiveMacro call text span)) : t.OnCycle call := by
  refine h.of_failsOnly (P := ReportsCycle t) (fun _ _ _ _ _ => trivial) fun namer id halt h => ?_
  obtain ⟨frame, hreach, hfault⟩ := exprText_error h
  cases halt with
  | outside | tooWide => trivial
  | defect cause =>
    cases cause with
    | recursiveMacro call text span =>
      exact ((Frame.Nested.start namer id).run hreach).onCycle hfault
    | _ => trivial

/-- The renderer refuses to expand a macro only where macros invoke each other in a cycle:
the macro is on one, and the call stands in the body of a macro of that cycle.  Where no
macro leads back to itself, no expansion is refused. -/
theorem recursiveMacro_only_on_cycle (t : Tree) (o : Options) :
    (∀ call text span, t.Raises o (.recursiveMacro call text span) → t.OnCycle call) ∧
      ((∀ id, ¬ TransGen t.Invokes id id) →
        ∀ call text span, ¬ t.Raises o (.recursiveMacro call text span)) := by
  refine ⟨fun _ _ _ h => onCycle_of_raises h, fun hacyclic call text span h => ?_⟩
  obtain ⟨target, _, hcycle, _⟩ := onCycle_of_raises h
  exact hacyclic target hcycle

/-- A macro that gives its argument back, and a call of it whose argument is a call of
it. -/
def repeatedMacro : Tree where
  nodes := #[
    { kind := .root [⟨1⟩, ⟨5⟩] },
    { kind := .macroDef .free { text := "same" } [⟨2⟩] ⟨4⟩, parent := some ⟨0⟩ },
    { kind := .binding .plain ⟨3⟩ { text := "x" } none, parent := some ⟨1⟩ },
    { kind := .typeRef [{ text := "int" }] [], parent := some ⟨2⟩ },
    { kind := .var { text := "x" } (some ⟨2⟩), parent := some ⟨1⟩ },
    { kind := .call ⟨6⟩ [⟨7⟩], parent := some ⟨0⟩ },
    { kind := .var { text := "same" } (some ⟨1⟩), parent := some ⟨5⟩, resolved := some ⟨1⟩ },
    { kind := .call ⟨8⟩ [⟨9⟩], parent := some ⟨5⟩ },
    { kind := .var { text := "same" } (some ⟨1⟩), parent := some ⟨7⟩, resolved := some ⟨1⟩ },
    { kind := .literal .number "1", parent := some ⟨7⟩ }]
  root := ⟨0⟩
  wellFormed := wellFormed_of_ofParts (by decide)

theorem not_invokes_repeatedMacro (caller target : NodeId) :
    ¬ repeatedMacro.Invokes caller target := by
  rintro ⟨call, ⟨form, name, params, body, hd, hbelow⟩, callee, args, _, _, _, _, hk, _⟩
  have honly : ∀ id ∈ repeatedMacro.ids,
      (repeatedMacro.kind? id).any Kind.isMacro = true → id = ⟨1⟩ := by decide
  have hcaller : caller = ⟨1⟩ := honly caller (mem_ids (index_lt_of_kind? hd)) (by rw [hd]; rfl)
  subst hcaller
  cases hd
  -- The body is a variable, which owns nothing.
  rcases hbelow.cases_head with rfl | ⟨child, howns, _⟩
  · cases hk
  · cases howns

/-- Two macros that call each other are refused and on a cycle; a macro that is repeated in
its own argument is on none, and is not refused. -/
theorem recursiveMacro_only_on_cycle_mutualMacros :
    (mutualMacros.Raises {} (.recursiveMacro ⟨3⟩ "pong" {}) ∧ mutualMacros.OnCycle ⟨3⟩) ∧
      (∀ id, ¬ TransGen repeatedMacro.Invokes id id) ∧
      ¬ repeatedMacro.Raises {} (.recursiveMacro ⟨7⟩ "same" {}) := by
  have hfails : mutualMacros.expr {} ⟨3⟩ = .error (.defect (.recursiveMacro ⟨3⟩ "pong" {})) := by
    cbv
  have hraises : mutualMacros.Raises {} (.recursiveMacro ⟨3⟩ "pong" {}) := .expr _ ⟨3⟩ hfails
  have hacyclic : ∀ id, ¬ TransGen repeatedMacro.Invokes id id := by
    intro id h
    obtain ⟨next, hstep, _⟩ := TransGen.head'_iff.1 h
    exact not_invokes_repeatedMacro id next hstep
  refine ⟨⟨hraises, ?_⟩, hacyclic, ?_⟩
  · exact (recursiveMacro_only_on_cycle mutualMacros {}).1 ⟨3⟩ "pong" {} hraises
  · exact (recursiveMacro_only_on_cycle repeatedMacro {}).2 hacyclic ⟨7⟩ "same" {}

end Tree

end Emitter
