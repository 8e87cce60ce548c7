import Mathlib.Data.Fin.Rev
import Emitter.Proofs.Project.Files
import Emitter.Proofs.Render.Expansion
import Emitter.Proofs.Render.Renumber

/-!
# Files of renumbered trees

The order in which nodes are stored is not visible in the files (`Renumbers.project`).  The
walk goes along the child lists, so it meets the corresponding nodes in the same order
(`Renumbers.topLevel`), and functions are grouped by the words of their packages
(`Renumbers.holders`).

Together with loading, which accepts an arena in every order or in none, this says that a
resolver is free to number the nodes as it likes (`project_permute`).
-/

namespace Emitter

/-- The definition with its number changed. -/
def TopLevel.renumber (f : NodeId → NodeId) : TopLevel → TopLevel
  | type id => type (f id)
  | function id => function (f id)

/-- What is picked by the sort of a definition is picked from the renumbered list as well. -/
theorem TopLevel.filterMap_renumber {f : NodeId → NodeId} {pick : TopLevel → Option NodeId}
    (hpick : ∀ item, pick (item.renumber f) = (pick item).map f) (items : List TopLevel) :
    (items.map (renumber f)).filterMap pick = (items.filterMap pick).map f := by
  rw [List.filterMap_map, List.map_filterMap]
  exact List.filterMap_congr fun item _ => hpick item

namespace Tree

/-! ## The walk -/

theorem topLevelAt_of_outside {t : Tree} {id : NodeId} (hk : t.kind? id = none) :
    t.topLevelAt id = .error (.outside id) := by
  rw [topLevelAt]
  split <;> rename_i hk' <;> cases hk.symm.trans hk'
  rfl

theorem topLevelAt_of_kind? {t : Tree} {id : NodeId} {kind : Kind} : t.kind? id = some kind →
    t.topLevelAt id =
      match kind with
      | .package _ definitions => do
        let inner ← collect definitions fun definition _ => t.topLevelAt definition
        return inner.flatten
      | .typeDef .. => .ok [.type id]
      | .callable .free .. => .ok [.function id]
      | .primitive _ => .ok []
      | .macroDef .. => .ok []
      | other => .error (t.unhandled id other .topLevelDefinition) := by
  intro hk
  rw [topLevelAt]
  split <;> rename_i hk' <;> cases hk.symm.trans hk'
  case h_7 => grind
  all_goals rfl

namespace Renumbers

variable {f : NodeId → NodeId} {t moved : Tree} (h : t.Renumbers f moved)

include h

omit h in
theorem flatten_topLevelAt {definitions : List NodeId}
    (hat : ∀ definition ∈ definitions, moved.topLevelAt (f definition) =
      ((t.topLevelAt definition).map (List.map (TopLevel.renumber f))).mapError
        (Halt.renumber f)) :
    (do let inner ← collect (definitions.map f) fun definition _ => moved.topLevelAt definition
        return inner.flatten) =
      ((do let inner ← collect definitions fun definition _ => t.topLevelAt definition
           return inner.flatten).map (List.map (TopLevel.renumber f))).mapError
        (Halt.renumber f) := by
  rw [collect_map_eq hat]
  cases collect definitions fun definition _ => t.topLevelAt definition with
  | error halt => rfl
  | ok inner => exact congrArg Except.ok List.map_flatten.symm

theorem topLevelAt (id : NodeId) :
    moved.topLevelAt (f id) =
      ((t.topLevelAt id).map (List.map (TopLevel.renumber f))).mapError (Halt.renumber f) := by
  induction id using induction_below (t := t) with
  | step id ih =>
    cases hk : t.kind? id with
    | none =>
      rw [topLevelAt_of_outside hk, topLevelAt_of_outside (h.kind?_of_none hk)]
      rfl
    | some kind =>
      rw [topLevelAt_of_kind? hk, topLevelAt_of_kind? (h.kind?_of_some hk)]
      cases kind with
      | package name definitions =>
        exact flatten_topLevelAt fun definition hd => ih _ definition hk hd
      | callable form name returnType params body =>
        cases form with
        | free => rfl
        | member =>
          have hrefused := h.unhandled id (.callable .member name returnType params body)
          exact congrArg Except.error (hrefused _)
      | typeDef | primitive | macroDef => rfl
      | _ => exact congrArg Except.error (h.unhandled id _ _)

theorem topLevel :
    moved.topLevel =
      (t.topLevel.map (List.map (TopLevel.renumber f))).mapError (Halt.renumber f) := by
  unfold Tree.topLevel rootDefinitions
  rw [h.root, h.children]
  exact flatten_topLevelAt fun definition _ => h.topLevelAt definition

/-! ## Files -/

theorem typeFile (o : Options) (id : NodeId) :
    moved.typeFile o (f id) = (t.typeFile o id).mapError (Halt.renumber f) := by
  unfold Tree.typeFile
  rw [h.kind?]
  cases t.kind? id with
  | none => rfl
  | some kind =>
    simp only [Option.map_some, Kind.name?_renumber, h.unhandled, h.package]
    cases kind.name? with
    | none => rfl
    | some name => exact bind_eq_mapError (h.stmtText o id) fun _ _ => rfl

theorem isMain (id : NodeId) : moved.isMain (f id) = t.isMain id := by
  unfold Tree.isMain
  rw [h.kind?]
  cases t.kind? id with
  | none => rfl
  | some kind => simp only [Option.map_some, Option.bind_some, Kind.name?_renumber]

omit h in
theorem entryPoint (f : NodeId → NodeId) (o : Options) :
    o.entryPoint = o.entryPoint.mapError (Halt.renumber f) :=
  bind_eq_mapError (braced f o _) fun _ _ => rfl

theorem holderFile (o : Options) (package : Option String) (functions : List NodeId) :
    moved.holderFile o package (functions.map f) =
      (t.holderFile o package functions).mapError (Halt.renumber f) := by
  have hmain : (functions.map f).any moved.isMain = functions.any t.isMain := by
    rw [List.any_map]
    exact congrArg (List.any functions) (funext h.isMain)
  unfold Tree.holderFile
  rw [hmain]
  refine bind_eq_mapError (collect_eq_mapError fun id _ => h.stmtText o id) fun _ _ => ?_
  refine bind_eq_mapError ?_ fun _ _ => bind_eq_mapError (braced f o _) fun _ _ => rfl
  split
  · exact bind_eq_mapError (entryPoint f o) fun _ _ => rfl
  · rfl

/-- The functions are grouped alike. -/
theorem holders (o : Options) (functions : List NodeId) :
    moved.holders o (functions.map f) =
      (t.holders o functions).map fun (package, members) => (package, members.map f) := by
  have hpackage : o.namer.package moved ∘ f = o.namer.package t := funext (h.package o.namer)
  unfold Tree.holders
  simp only [List.map_map, hpackage]
  refine List.map_congr_left fun package _ => ?_
  simp only [Function.comp_apply, List.filter_map]
  simp only [← hpackage]
  rfl

/-- Trees that correspond have the same files. -/
theorem project (o : Options) :
    moved.project o = (t.project o).mapError (Halt.renumber f) := by
  refine bind_map_eq h.topLevel fun items _ => ?_
  have htypes : (items.map (TopLevel.renumber f)).filterMap TopLevel.type? =
      (items.filterMap TopLevel.type?).map f :=
    TopLevel.filterMap_renumber (fun item => by cases item <;> rfl) items
  have hfunctions : (items.map (TopLevel.renumber f)).filterMap TopLevel.function? =
      (items.filterMap TopLevel.function?).map f :=
    TopLevel.filterMap_renumber (fun item => by cases item <;> rfl) items
  have hhosts : (collect (moved.holders o ((items.filterMap TopLevel.function?).map f))
        fun holder _ => moved.holderFile o holder.1 holder.2) =
      (collect (t.holders o (items.filterMap TopLevel.function?))
        fun holder _ => t.holderFile o holder.1 holder.2).mapError (Halt.renumber f) := by
    rw [h.holders]
    exact collect_eq_mapError fun holder _ => h.holderFile o holder.1 holder.2
  rw [htypes, hfunctions]
  refine bind_eq_mapError (collect_eq_mapError fun id _ => h.typeFile o id) fun _ _ => ?_
  exact bind_eq_mapError hhosts fun _ _ => rfl

end Renumbers

/-! ## Permuted arenas -/

/-- The order of the nodes of an arena has no effect.  A permuted arena is accepted exactly
when the arena is, and then the two trees have the same files under all options, or the same
defect with the new number of its node.  The one other end, text that would be set too deep,
is met on both sides or on neither, and only under a level that is too wide. -/
theorem project_permute (nodes : Arena) (root : NodeId) (p : Equiv.Perm (Fin nodes.size))
    (hsize : nodes.size ≤ UInt32.size) :
    ((∃ moved, Tree.ofParts (nodes.permute p) (root.move p) = .ok moved) ↔
      ∃ t, Tree.ofParts nodes root = .ok t) ∧
    ∀ t moved, Tree.ofParts nodes root = .ok t →
      Tree.ofParts (nodes.permute p) (root.move p) = .ok moved → ∀ o : Options,
        (∃ files, t.project o = .ok files ∧ moved.project o = .ok files) ∨
        (∃ e, t.project o = .error (.defect e) ∧
          moved.project o = .error (.defect (e.renumber (NodeId.move p)))) ∨
        (widthLimit ≤ o.indentWidth ∧
          t.project o = .error .tooWide ∧ moved.project o = .error .tooWide) := by
  refine ⟨Arena.exists_ofParts_permute_iff hsize, fun t moved ht hmoved o => ?_⟩
  have hproject := (renumbers_of_ofParts hsize ht hmoved).project o
  have hforeseen : FailsOnly (Halt.IsForeseen o) (t.project o) :=
    failsOnly_project (fun _ _ _ _ _ => trivial) (fun _ => isForeseen_of_expr) fun hwide => hwide
  cases h : t.project o with
  | ok files => exact .inl ⟨files, rfl, by rw [hproject, h]; rfl⟩
  | error halt =>
    have hend := hforeseen halt h
    cases halt with
    | defect e => exact .inr (.inl ⟨e, rfl, by rw [hproject, h]; rfl⟩)
    | outside => exact hend.elim
    | tooWide => exact .inr (.inr ⟨hend, rfl, by rw [hproject, h]; rfl⟩)

/-- Two trees stored backwards: the files of the one are the same, and the other fails at the
same call inside an expansion, which has another number. -/
theorem project_permute_backwards :
    (splitPackage.nodes.size ≤ UInt32.size ∧ shortCall.nodes.size ≤ UInt32.size) ∧
    (∃ moved files, Tree.ofParts (splitPackage.nodes.permute Fin.revPerm) ⟨8⟩ = .ok moved ∧
      splitPackage.project {} = .ok files ∧ moved.project {} = .ok files) ∧
    ∃ moved, Tree.ofParts (shortCall.nodes.permute Fin.revPerm) ⟨19⟩ = .ok moved ∧
      moved.project {} = .error (.defect
        (.macroArity ⟨8⟩ "pick" 2 1 { file := 1, start := 40, stop := 47 })) := by
  have hsizes : splitPackage.nodes.size ≤ UInt32.size ∧ shortCall.nodes.size ≤ UInt32.size := by
    decide
  refine ⟨hsizes, ?_, ?_⟩
  · have hload : Tree.ofParts splitPackage.nodes ⟨0⟩ = .ok splitPackage :=
      eq_ok_of_toOption (by decide)
    have hfiles : (splitPackage.project {}).toOption.isSome = true := by decide +kernel
    obtain ⟨haccepted, hsame⟩ := project_permute splitPackage.nodes ⟨0⟩ Fin.revPerm hsizes.1
    obtain ⟨moved, hmoved⟩ := haccepted.2 ⟨_, hload⟩
    rcases hsame _ moved hload hmoved {} with ⟨files, ht, hm⟩ | ⟨e, ht, _⟩ | ⟨_, ht, _⟩
    · exact ⟨moved, files, hmoved, ht, hm⟩
    all_goals
      rw [ht] at hfiles
      cases hfiles
  · have hload : Tree.ofParts shortCall.nodes ⟨0⟩ = .ok shortCall := eq_ok_of_toOption (by decide)
    have hfails : shortCall.project {} = .error (.defect
        (.macroArity ⟨11⟩ "pick" 2 1 { file := 1, start := 40, stop := 47 })) := by cbv
    obtain ⟨haccepted, hsame⟩ := project_permute shortCall.nodes ⟨0⟩ Fin.revPerm hsizes.2
    obtain ⟨moved, hmoved⟩ := haccepted.2 ⟨_, hload⟩
    refine ⟨moved, hmoved, ?_⟩
    rcases hsame _ moved hload hmoved {} with ⟨files, ht, _⟩ | ⟨e, ht, hm⟩ | ⟨_, ht, _⟩
    · cases hfails.symm.trans ht
    · cases hfails.symm.trans ht
      exact hm
    · cases hfails.symm.trans ht

end Tree

end Emitter
