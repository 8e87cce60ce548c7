import Emitter.Proofs.Render.Failure
import Emitter.Proofs.Tree.Loading

/-!
# Runs of the renderers

A run of the expression renderer is the activations that `Tree.Calls` reaches
from its first one.  `Frame.Valid` is what every activation of a run satisfies:
it stands at a node of the tree, and the macros under expansion are macros of the
tree, each listed once.  A step keeps it (`Frame.Valid.step`), hence a run does,
and the number of macros bounds how deep expansions nest.

No activation looks outside the arena, because loading has checked every
reference that a renderer follows.  So a renderer that starts inside the tree
ends with a text or with a defect of a node; only setting text deeper can end
otherwise, when a level is wider than there can be blanks.
-/

namespace Emitter

/-- Whether rendering ended at a defect of a node. -/
def Halt.IsDefect : Halt → Prop
  | defect _ => True
  | outside _ | tooWide => False

/-- Whether rendering ended at a defect of a node, or at text that could not be
set deeper because a level is too wide. -/
def Halt.IsForeseen (o : Options) : Halt → Prop
  | defect _ => True
  | outside _ => False
  | tooWide => widthLimit ≤ o.indentWidth

namespace Tree

variable {t : Tree} {o : Options}

/-- How many macros the tree has. -/
def macroCount (t : Tree) : Nat := t.nodes.toList.countP fun node => node.kind.isMacro

/-! ## Activations -/

/-- What every activation of a run satisfies. -/
structure Frame.Valid (t : Tree) (frame : Frame) : Prop where
  inside : frame.id.index < t.size
  nodup : frame.expanding.Nodup
  macros : ∀ id ∈ frame.expanding, ∃ kind, t.kind? id = some kind ∧ kind.isMacro = true

theorem Frame.Valid.start (namer : Namer) {id : NodeId} (hin : id.index < t.size) :
    Frame.Valid t { namer, expanding := [], id } where
  inside := hin
  nodup := List.nodup_nil
  macros := by simp

theorem Frame.Valid.step {frame inner : Frame} (h : frame.Valid t) (hc : t.Calls o frame inner) :
    inner.Valid t := by
  cases hc with
  | child hk hc => exact ⟨index_lt_of_child hk hc, h.nodup, h.macros⟩
  | receiver hk hr =>
    refine ⟨?_, h.nodup, h.macros⟩
    unfold receiver? at hr
    split at hr
    · next hattr => cases hr; exact index_lt_of_child hattr List.mem_cons_self
    · cases hr
  | body hk ht hd hnew =>
    refine ⟨index_lt_of_child hd (by simp [Kind.children]), List.nodup_cons.2 ⟨hnew, h.nodup⟩, ?_⟩
    intro id hid
    rcases List.mem_cons.1 hid with rfl | hid
    · exact ⟨_, hd, rfl⟩
    · exact h.macros id hid

theorem Frame.Valid.run {frame inner : Frame} (h : frame.Valid t) (hr : t.Reaches o frame inner) :
    inner.Valid t := by
  induction hr with
  | refl => exact h
  | tail _ hc ih => exact ih.step hc

/-- Expansions nest at most as deep as there are macros. -/
theorem Frame.Valid.length_le {frame : Frame} (h : frame.Valid t) :
    frame.expanding.length ≤ t.macroCount := by
  -- The positions of the macros under expansion are different positions of macros.
  let positions := (t.nodes.toList.zipIdx.filter fun p => p.1.kind.isMacro).map (·.2)
  have hcount : positions.length = t.macroCount := by
    have hnodes : t.nodes.toList = t.nodes.toList.zipIdx.map (·.1) := by simp
    rw [macroCount, hnodes, List.countP_map, List.countP_eq_length_filter, List.length_map]
    rfl
  have hsub : frame.expanding.map NodeId.index ⊆ positions := by
    intro i hi
    obtain ⟨id, hid, rfl⟩ := List.mem_map.1 hi
    obtain ⟨kind, hk, hexpands⟩ := h.macros id hid
    obtain ⟨node, hn, rfl⟩ := kind?_eq_some_iff.1 hk
    have hmem : (node, id.index) ∈ t.nodes.toList.zipIdx := by
      rw [List.mem_zipIdx_iff_getElem?]
      simpa [node?, Arena.node?] using hn
    exact List.mem_map.2 ⟨_, List.mem_filter.2 ⟨hmem, hexpands⟩, rfl⟩
  have hnodup : (frame.expanding.map NodeId.index).Nodup :=
    h.nodup.map fun _ _ he => NodeId.ext he
  have hle := (List.subperm_of_subset hnodup hsub).length_le
  rwa [List.length_map, hcount] at hle

/-- Every run ends: activations do not start each other for ever. -/
theorem wellFounded_calls (t : Tree) (o : Options) :
    WellFounded fun inner frame => t.Calls o frame inner := by
  refine Subrelation.wf (fun hc => Calls.measure_lt hc) ?_
  exact InvImage.wf (fun frame : Frame => (t.idle frame.expanding, t.room frame.id))
    (Prod.lex ⟨_, Nat.lt_wfRel.wf⟩ ⟨_, Nat.lt_wfRel.wf⟩).wf

/-! ## References -/

theorem index_lt_of_references {id reference : NodeId} {node : Node} (hn : t.node? id = some node)
    (hr : reference ∈ node.references) : reference.index < t.size :=
  t.wellFormed.inside node (Array.mem_of_getElem? hn) reference hr

theorem index_lt_of_definition {id definition : NodeId} {name : Name}
    (hk : t.kind? id = some (.var name (some definition))) : definition.index < t.size := by
  obtain ⟨node, hn, hkind⟩ := kind?_eq_some_iff.1 hk
  exact index_lt_of_references hn (by simp [Node.references, hkind, Kind.definition?])

theorem index_lt_of_resolution {id type : NodeId} (h : t.resolution id = .ok type) :
    type.index < t.size := by
  obtain ⟨node, hn, hresolved⟩ := Option.bind_eq_some_iff.1 (resolution_eq_ok_iff.1 h)
  exact index_lt_of_references hn (by simp [Node.references, hresolved])

theorem isDefect_of_resolution {id : NodeId} (hin : id.index < t.size) :
    FailsOnly Halt.IsDefect (t.resolution id) := by
  unfold resolution
  split
  · next hn =>
    obtain ⟨kind, hk⟩ := exists_kind? hin
    rw [kind?, hn] at hk
    cases hk
  · split
    · exact .ok _ _
    · exact .error trivial

theorem isDefect_of_parameterName {id : NodeId} (hin : id.index < t.size) :
    FailsOnly Halt.IsDefect (t.parameterName id) := by
  unfold parameterName
  split
  · next hk => exact absurd hk (kind?_ne_none hin)
  · split
    · exact .ok _ _
    · exact .error trivial

/-! ## Ends of a run -/

theorem isDefect_of_typeText (namer : Namer) {id : NodeId} (hin : id.index < t.size) :
    FailsOnly Halt.IsDefect (t.typeText namer id) :=
  failsOnly_typeText (fun _ _ _ _ _ => trivial) namer id hin

/-- An activation inside the tree raises nothing but defects. -/
theorem ExprFault.isDefect {frame : Frame} {halt : Halt} (hin : frame.id.index < t.size)
    (h : t.ExprFault frame halt) : halt.IsDefect := by
  cases h with
  | outside hk => exact absurd hk (kind?_ne_none hin)
  | type hk h => exact isDefect_of_typeText _ hin _ h
  | definitionOutside hk hd => exact absurd hd (kind?_ne_none (index_lt_of_definition hk))
  | receiverType hk h =>
    exact isDefect_of_resolution (index_lt_of_child hk List.mem_cons_self) _ h
  | receiverOutside hk ht hd => exact absurd hd (kind?_ne_none (index_lt_of_resolution ht))
  | memberType hk ht hd h => exact isDefect_of_resolution hin _ h
  | memberOutside ht hd => exact absurd hd (kind?_ne_none (index_lt_of_resolution ht))
  | calleeType hk h => exact isDefect_of_resolution (index_lt_of_child hk List.mem_cons_self) _ h
  | calleeOutside hk ht hd => exact absurd hd (kind?_ne_none (index_lt_of_resolution ht))
  | parameter hk ht hd hp h =>
    exact isDefect_of_parameterName (index_lt_of_child hd (by simp [Kind.children, hp])) _ h
  | notExpression | unbound | definitionKind | receiverKind | calleeKind | noReceiver | recursive
  | arity => trivial

theorem isDefect_of_exprText (namer : Namer) {id : NodeId} (hin : id.index < t.size) :
    FailsOnly Halt.IsDefect (t.exprText o namer [] id) := by
  intro halt h
  obtain ⟨frame, hreach, hfault⟩ := exprText_error h
  exact hfault.isDefect ((Frame.Valid.start namer hin).run hreach).inside

theorem Halt.IsDefect.isForeseen {halt : Halt} (h : halt.IsDefect) : halt.IsForeseen o := by
  cases halt with
  | defect => trivial
  | outside | tooWide => exact h.elim

theorem isForeseen_of_expr {id : NodeId} (hin : id.index < t.size) :
    FailsOnly (Halt.IsForeseen o) (t.expr o id) :=
  fun halt h => Halt.IsDefect.isForeseen (isDefect_of_exprText o.namer hin halt h)

/-- What holds of rendering from a node under a namer. -/
structure RendersInside (t : Tree) (o : Options) (namer : Namer) (id : NodeId) : Prop where
  /-- An expression has a text or a defect. -/
  expr : FailsOnly Halt.IsDefect (t.exprText o namer [] id)
  /-- A type has a text or a defect. -/
  type : FailsOnly Halt.IsDefect (t.typeText namer id)
  /-- The package of the node is read off nodes of the tree. -/
  package : ∀ upper ∈ t.ancestors id, t.contains upper = true
  /-- A statement has a text or a defect, unless a level is too wide. -/
  stmt : FailsOnly (Halt.IsForeseen o) (t.stmtText o id)
  /-- So has the tree as a whole. -/
  project : FailsOnly (Halt.IsForeseen o) (t.project o)
  /-- Activations do not start each other for ever. -/
  ends : WellFounded fun inner frame => t.Calls o frame inner
  /-- Every activation stands inside the tree, lists no macro twice, and lists at
  most as many as the tree has. -/
  nesting : ∀ frame, t.Reaches o { namer, expanding := [], id } frame →
    t.contains frame.id = true ∧ frame.expanding.Nodup ∧
      frame.expanding.length ≤ t.macroCount

/-- Rendering from a node of a tree ends, stays inside the tree and nests
expansions no deeper than there are macros, whatever the references form. -/
theorem rendersInside_of_contains (t : Tree) (o : Options) (namer : Namer) (id : NodeId)
    (hid : t.contains id = true) : RendersInside t o namer id := by
  have hin : id.index < t.size := of_decide_eq_true hid
  have hnode : ∀ id kind position, t.kind? id = some kind →
      Position.accepts position kind = false → Halt.IsForeseen o (t.unhandled id kind position) :=
    fun _ _ _ _ _ => trivial
  have hexpr : ∀ id : NodeId, id.index < t.size → FailsOnly (Halt.IsForeseen o) (t.expr o id) :=
    fun _ => isForeseen_of_expr
  have hwide : widthLimit ≤ o.indentWidth → Halt.IsForeseen o .tooWide := fun h => h
  refine
    { expr := isDefect_of_exprText namer hin
      type := isDefect_of_typeText namer hin
      package := fun upper hupper => decide_eq_true (index_lt_of_mem_ancestors hin hupper)
      stmt := failsOnly_stmtText hnode hexpr hwide id hin
      project := failsOnly_project hnode hexpr hwide
      ends := t.wellFounded_calls o
      nesting := fun frame hreach => ?_ }
  have hvalid := (Frame.Valid.start namer hin).run hreach
  exact ⟨decide_eq_true hvalid.inside, hvalid.nodup, hvalid.length_le⟩

/-- Two macros, each with a call of the other as its body. -/
def mutualMacros : Tree where
  nodes := #[
    { kind := .root [⟨1⟩, ⟨2⟩] },
    { kind := .macroDef .free { text := "ping" } [] ⟨3⟩, parent := some ⟨0⟩ },
    { kind := .macroDef .free { text := "pong" } [] ⟨5⟩, parent := some ⟨0⟩ },
    { kind := .call ⟨4⟩ [], parent := some ⟨1⟩ },
    { kind := .var { text := "pong" } (some ⟨2⟩), parent := some ⟨3⟩, resolved := some ⟨2⟩ },
    { kind := .call ⟨6⟩ [], parent := some ⟨2⟩ },
    { kind := .var { text := "ping" } (some ⟨1⟩), parent := some ⟨5⟩, resolved := some ⟨1⟩ }]
  root := ⟨0⟩
  wellFormed := wellFormed_of_ofParts (by decide)

/-- The calls in the two bodies lead to each other, and rendering them ends. -/
theorem rendersInside_mutualMacros :
    mutualMacros.contains ⟨3⟩ = true ∧ RendersInside mutualMacros {} Namer.plain ⟨3⟩ := by
  have hid : mutualMacros.contains ⟨3⟩ = true := by decide
  exact ⟨hid, rendersInside_of_contains mutualMacros {} Namer.plain ⟨3⟩ hid⟩

/-! ## Levels that are too wide -/

theorem braced_eq_tooWide {text : String} (hne : text.isEmpty = false)
    (hwide : widthLimit ≤ o.indentWidth) : o.braced text = .error .tooWide := by
  have hnonempty : text ≠ "" := by
    rintro rfl
    cases hne
  rw [Options.braced, nested?_of_le hnonempty hwide]

/-- A condition with a statement to set deeper, and a number in the place of its
other branch. -/
def conditionWithBody : Tree where
  nodes := #[
    { kind := .literal .fixed "true", parent := some ⟨4⟩ },
    { kind := .ret none, parent := some ⟨2⟩ },
    { kind := .block [⟨1⟩], parent := some ⟨4⟩ },
    { kind := .literal .number "2", parent := some ⟨4⟩ },
    { kind := .cond ⟨0⟩ ⟨2⟩ (some ⟨3⟩), parent := some ⟨5⟩ },
    { kind := .root [⟨4⟩] }]
  root := ⟨5⟩
  wellFormed := wellFormed_of_ofParts (by decide)

/-- With levels that are too wide a statement may end with neither a text nor a
defect: its body is set deeper before the defect is met. -/
theorem not_isDefect_of_tooWide :
    conditionWithBody.contains ⟨4⟩ = true ∧
      ¬ FailsOnly Halt.IsDefect (conditionWithBody.stmtText { indentWidth := widthLimit } ⟨4⟩) := by
  refine ⟨by decide, fun h => ?_⟩
  have hkind : conditionWithBody.kind? ⟨4⟩ = some (.cond ⟨0⟩ ⟨2⟩ (some ⟨3⟩)) := rfl
  have htest : conditionWithBody.expr { indentWidth := widthLimit } ⟨0⟩ = .ok "true" := by
    have hliteral : conditionWithBody.kind? ⟨0⟩ = some (.literal .fixed "true") := rfl
    rw [expr, exprText, exprStep]
    split <;> rename_i hk <;> cases hliteral.symm.trans hk
    · rfl
    · grind
  have htext : conditionWithBody.stmtText { indentWidth := widthLimit } ⟨2⟩ = .ok "return;" :=
    eq_ok_of_toOption (by decide +kernel)
  have hbraced : Options.braced { indentWidth := widthLimit } "return;" = .error .tooWide :=
    braced_eq_tooWide rfl (Nat.le_refl _)
  refine h .tooWide ?_
  rw [stmtText]
  split <;> rename_i hk <;> cases hkind.symm.trans hk
  · simp only [htest, htext, hbraced, bind, Except.bind]
  · grind

end Tree

end Emitter
