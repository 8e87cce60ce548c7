import Emitter.Proofs.Project.Renumber
import Emitter.Proofs.Render.MacroName

/-!
# Files and the names of macros

No name of a macro gets into a file.  Two trees that differ in such names only have the same
files, or none of them has any (`project_ok_iff_of_renamesMacros`).

The walk passes macros over, so the two trees have the same top-level definitions
(`RenamesMacros.topLevel`).  Files are named after types, functions and packages, which are the
same nodes in both.
-/

namespace Emitter

namespace Tree

namespace RenamesMacros

variable {t renamed : Tree} (h : t.RenamesMacros renamed)

include h

/-! ## The walk -/

theorem topLevelAt (id : NodeId) :
    (renamed.topLevelAt id).toOption = (t.topLevelAt id).toOption := by
  induction id using induction_below (t := t) with
  | step id ih =>
    cases hk : t.kind? id with
    | none => rw [topLevelAt_of_outside hk, topLevelAt_of_outside (h.kind?_of_none hk)]
    | some kind =>
      obtain ⟨text, hk'⟩ := h.kind?_of_some hk
      rw [topLevelAt_of_kind? hk, topLevelAt_of_kind? hk']
      cases kind with
      | package name definitions =>
        refine toOption_bind_congr (toOption_collect_congr fun definition hd => ?_) fun _ _ => rfl
        exact ih _ definition hk hd
      | callable form => cases form <;> rfl
      | _ => rfl

theorem topLevel : renamed.topLevel.toOption = t.topLevel.toOption := by
  unfold Tree.topLevel rootDefinitions
  rw [h.root, h.children]
  exact toOption_bind_congr (toOption_collect_congr fun definition _ => h.topLevelAt definition)
    fun _ _ => rfl

/-! ## Files -/

/-- What a test accepts that refuses macros, variables and attributes is the same node in both
trees. -/
theorem kind?_of_any {id : NodeId} {test : Kind → Bool} (htest : (t.kind? id).any test = true)
    (hplain : ∀ kind text, test kind = true → kind.respell text = kind) :
    renamed.kind? id = t.kind? id := by
  obtain ⟨kind, hk, hkind⟩ := (Option.any_eq_true _ _).1 htest
  obtain ⟨text, hk'⟩ := h.kind?_of_some hk
  rw [hk', hplain kind text hkind, hk]

theorem typeFile (o : Options) {id : NodeId} (htype : t.isType id = true) :
    (renamed.typeFile o id).toOption = (t.typeFile o id).toOption := by
  have hsame : renamed.kind? id = t.kind? id := by
    refine h.kind?_of_any htype fun kind text hkind => ?_
    cases kind with
    | typeDef => rfl
    | _ => cases hkind
  unfold Tree.typeFile
  rw [hsame, h.package]
  cases t.kind? id with
  | none => rfl
  | some kind =>
    cases hname : kind.name? with
    | none => simp [hname, Except.toOption]
    | some name =>
      simp only [hname]
      exact toOption_bind_congr (h.stmtText o id) fun _ _ => rfl

theorem isMain {id : NodeId} (hfunction : t.isFunction id = true) :
    renamed.isMain id = t.isMain id := by
  have hsame : renamed.kind? id = t.kind? id := by
    refine h.kind?_of_any hfunction fun kind text hkind => ?_
    cases kind with
    | callable => rfl
    | _ => cases hkind
  unfold Tree.isMain
  rw [hsame]

theorem holderFile (o : Options) (package : Option String) {functions : List NodeId}
    (hfunctions : ∀ id ∈ functions, t.isFunction id = true) :
    (renamed.holderFile o package functions).toOption =
      (t.holderFile o package functions).toOption := by
  have hmain : functions.any renamed.isMain = functions.any t.isMain := by
    rw [Bool.eq_iff_iff, List.any_eq_true, List.any_eq_true]
    apply exists_congr
    intro id
    apply and_congr_right
    intro hid
    rw [h.isMain (hfunctions id hid)]
  unfold Tree.holderFile
  rw [hmain]
  exact toOption_bind_congr (toOption_collect_congr fun id _ => h.stmtText o id) fun _ _ => rfl

theorem holders (o : Options) (functions : List NodeId) :
    renamed.holders o functions = t.holders o functions := by
  have hpackage : o.namer.package renamed = o.namer.package t := funext (h.package o.namer)
  unfold Tree.holders
  rw [hpackage]

theorem project (o : Options) : (renamed.project o).toOption = (t.project o).toOption := by
  refine toOption_bind_congr h.topLevel fun items hitems => ?_
  have hhosts : (collect (renamed.holders o (items.filterMap TopLevel.function?))
        fun holder _ => renamed.holderFile o holder.1 holder.2).toOption =
      (collect (t.holders o (items.filterMap TopLevel.function?))
        fun holder _ => t.holderFile o holder.1 holder.2).toOption := by
    rw [h.holders, functions_of_topLevel hitems]
    refine toOption_collect_congr fun holder hholder => ?_
    obtain ⟨package, _, rfl⟩ := List.mem_map.1 hholder
    apply h.holderFile
    intro id hid
    have hwalked := (List.mem_filter.1 hid).1
    exact (List.mem_filter.1 hwalked).2
  refine toOption_bind_congr (toOption_collect_congr fun id hid => ?_) fun _ _ => ?_
  · rw [types_of_topLevel hitems] at hid
    exact h.typeFile o (List.mem_filter.1 hid).2
  · exact toOption_bind_congr hhosts fun _ _ => rfl

end RenamesMacros

/-- Two trees that differ only in names of macros that are no parameters, and in the texts by
which macros are called, have the same files under all options, or neither has files. -/
theorem project_ok_iff_of_renamesMacros (t renamed : Tree) (h : t.RenamesMacros renamed)
    (o : Options) (files : Files) : renamed.project o = .ok files ↔ t.project o = .ok files := by
  have hsame := h.project o
  constructor
  · intro hrenamed
    rw [hrenamed] at hsame
    exact eq_ok_of_toOption hsame.symm
  · intro ht
    rw [ht] at hsame
    exact eq_ok_of_toOption hsame

/-- A macro with a parameter, and a class with a macro of its own and a field, the value of which
is the first macro called with a call of the second. -/
def macroCallNodes (outer inner : String) : Arena :=
  #[
    { kind := .root [⟨1⟩, ⟨5⟩] },
    { kind := .macroDef .free { text := outer } [⟨2⟩] ⟨4⟩, parent := some ⟨0⟩ },
    { kind := .binding .plain ⟨3⟩ { text := "x" } none, parent := some ⟨1⟩ },
    { kind := .typeRef [{ text := "int" }] [], parent := some ⟨2⟩ },
    { kind := .var { text := "x" } (some ⟨2⟩), parent := some ⟨1⟩ },
    { kind := .typeDef .classType { text := "C" } [] [⟨6⟩, ⟨8⟩], parent := some ⟨0⟩ },
    { kind := .macroDef .member { text := inner } [] ⟨7⟩, parent := some ⟨5⟩ },
    { kind := .literal .number "0", parent := some ⟨6⟩ },
    { kind := .binding .field ⟨9⟩ { text := "f" } (some ⟨10⟩), parent := some ⟨5⟩ },
    { kind := .typeRef [{ text := "int" }] [], parent := some ⟨8⟩ },
    { kind := .call ⟨11⟩ [⟨12⟩], parent := some ⟨8⟩ },
    { kind := .var { text := outer } (some ⟨1⟩), parent := some ⟨10⟩, resolved := some ⟨1⟩ },
    { kind := .call ⟨13⟩ [], parent := some ⟨10⟩ },
    { kind := .attr ⟨14⟩ { text := inner }, parent := some ⟨12⟩, resolved := some ⟨6⟩ },
    { kind := .literal .fixed "c", parent := some ⟨13⟩ }]

def macroCalls : Tree where
  nodes := macroCallNodes "same" "zero"
  root := ⟨0⟩
  wellFormed := wellFormed_of_ofParts (by decide)

def renamedMacroCalls : Tree where
  nodes := macroCallNodes "main" "f"
  root := ⟨0⟩
  wellFormed := wellFormed_of_ofParts (by decide)

theorem renamesMacros_macroCalls : macroCalls.RenamesMacros renamedMacroCalls := by
  refine ⟨rfl, rfl, fun id => ?_⟩
  have hfree : ∀ id owner, macroCalls.parent? id = some owner →
      (macroCalls.kind? owner).any Kind.isMacro = false → ¬ macroCalls.IsMacroParameter id := by
    rintro id owner hparent hother ⟨_, _, _, _, _, hk, hid⟩
    have hlisted := parent?_of_mem_children (mem_children_of_kind? hk (List.mem_append_left _ hid))
    cases hparent.symm.trans hlisted
    rw [hk] at hother
    cases hother
  have hplain : ∀ i, i ∉ [1, 6, 11, 13] →
      renamedMacroCalls.nodes[i]? = macroCalls.nodes[i]? := by
    intro i hi
    by_cases hsize : i < 15
    · exact (by decide : ∀ i < 15, i ∉ [1, 6, 11, 13] →
        renamedMacroCalls.nodes[i]? = macroCalls.nodes[i]?) i hsize hi
    · have hle : 15 ≤ i := Nat.not_lt.1 hsize
      rw [Array.getElem?_eq_none hle, Array.getElem?_eq_none hle]
  by_cases hid : id.index ∈ [1, 6, 11, 13]
  · simp only [List.mem_cons, List.not_mem_nil, or_false] at hid
    rcases hid with hid | hid | hid | hid
    · obtain rfl : id = ⟨1⟩ := NodeId.ext hid
      exact .inr ⟨.definition rfl rfl (hfree _ ⟨0⟩ rfl rfl), "main", rfl⟩
    · obtain rfl : id = ⟨6⟩ := NodeId.ext hid
      exact .inr ⟨.definition rfl rfl (hfree _ ⟨5⟩ rfl rfl), "f", rfl⟩
    · obtain rfl : id = ⟨11⟩ := NodeId.ext hid
      exact .inr ⟨.callee ⟨⟨10⟩, [⟨12⟩], ⟨1⟩, _, rfl, rfl, rfl, rfl⟩, "main", rfl⟩
    · obtain rfl : id = ⟨13⟩ := NodeId.ext hid
      exact .inr ⟨.callee ⟨⟨12⟩, [], ⟨6⟩, _, rfl, rfl, rfl, rfl⟩, "f", rfl⟩
  · exact .inl (hplain id.index hid)

/-- The field has the value of the inner call, whatever the macros are called. -/
theorem project_ok_iff_of_renamesMacros_macroCalls :
    macroCalls.RenamesMacros renamedMacroCalls ∧ ∃ files,
      macroCalls.project {} = .ok files ∧ renamedMacroCalls.project {} = .ok files ∧
        files.keys = [⟨"C.java"⟩] := by
  have htop : macroCalls.topLevel = .ok [.type ⟨5⟩] := eq_ok_of_toOption (by decide +kernel)
  have hpackage : (Options.namer {}).package macroCalls ⟨5⟩ = none := by decide +kernel
  have hsilent : macroCalls.stmtText {} ⟨6⟩ = .ok "" := by cbv
  have hfield : macroCalls.stmtText {} ⟨8⟩ = .ok "Integer f = 0;" := by cbv
  obtain ⟨body, hproject⟩ := exists_project_of_class htop rfl hpackage (by decide)
    (.cons hsilent (.cons hfield .nil))
  refine ⟨renamesMacros_macroCalls, _, hproject, ?_, rfl⟩
  exact (project_ok_iff_of_renamesMacros _ _ renamesMacros_macroCalls {} _).2 hproject

end Tree

end Emitter
