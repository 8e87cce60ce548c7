import Emitter.Pipeline
import Emitter.Proofs.Config.Settings
import Emitter.Proofs.Path
import Emitter.Proofs.Project.Files
import Emitter.Proofs.Storage.Disk

/-!
# Compiling on a disk

`Pipeline.Ends` says once what a compilation on a disk can do: it is refused before
anything is written, it keeps its files to itself, it gets stuck at a file, or it writes
them all.

The second half is about where the files are.  The output directory is joined with a
path that is put together from names, and names may hold separators.  `Tree.LeadsDown`
says of the names of a tree that none leads anywhere but down.  With such names every file
lies below the output directory, and without them some file does not
(`isBelow_iff_leadsDown`).
-/

namespace Emitter

/-! ## Runs -/

/-- The tree in a file of a disk. -/
def Disk.readTree (d : Disk) (path : Path) : Except BuildError Tree :=
  match d.read path with
  | .error e => .error (.unreadable e)
  | .ok document => (Tree.parse document).mapError BuildError.tree

theorem Disk.run_read (d : Disk) (path : Path) :
    (Tree.read path : StateM Disk (Except BuildError Tree)).run d = (d.readTree path, d) := by
  have hread : (Storage.read path : StateM Disk (Except StorageError String)).run d =
      (d.read path, d) := rfl
  unfold Tree.read Disk.readTree
  rw [StateT.run_bind, hread]
  cases d.read path <;> rfl

namespace Pipeline

/-- Compiles on a disk. -/
def compileOn (p : Pipeline) (t : Tree) (target : String) (out : Path) (disk : Disk) :
    Except BuildError Compilation × Disk :=
  (p.compile t target out : StateM Disk (Except BuildError Compilation)).run disk

/-- Loads and compiles on a disk. -/
def compileFileOn (p : Pipeline) (input : Path) (target : String) (out : Path) (disk : Disk) :
    Except BuildError Compilation × Disk :=
  (p.compileFile input target out : StateM Disk (Except BuildError Compilation)).run disk

/-- How a compilation may end, and with which disk. -/
inductive Ends (p : Pipeline) (t : Tree) (target : String) (out : Path) (disk : Disk) :
    Except BuildError Compilation × Disk → Prop where
  /-- The files cannot be rendered. -/
  | refused {e : BuildError} (hrender : p.render t target = .error e) :
      Ends p t target out disk (.error e, disk)
  /-- Writing is switched off. -/
  | kept {files : Files} (hrender : p.render t target = .ok files)
      (hwrites : p.isEnabled .write = false) :
      Ends p t target out disk (.ok { target, files, nodeCount := t.size }, disk)
  /-- A file cannot be written. -/
  | stuck {files : Files} {e : StorageError} {disk' : Disk}
      (hrender : p.render t target = .ok files) (hwrites : p.isEnabled .write = true)
      (hfiles : disk.writeFiles (files.under out) = (.error e, disk')) :
      Ends p t target out disk (.error (.storage e), disk')
  | written {files : Files} {disk' : Disk} (hrender : p.render t target = .ok files)
      (hwrites : p.isEnabled .write = true)
      (hfiles : disk.writeFiles (files.under out) = (.ok (), disk')) :
      Ends p t target out disk
        (.ok { target, files := Table.ofList (files.under out), nodeCount := t.size }, disk')

theorem ends_compileOn (p : Pipeline) (t : Tree) (target : String) (out : Path) (disk : Disk) :
    p.Ends t target out disk (p.compileOn t target out disk) := by
  unfold compileOn compile
  cases hrender : p.render t target with
  | error e => exact .refused hrender
  | ok files =>
    cases hwrites : p.isEnabled .write with
    | false => exact .kept hrender hwrites
    | true =>
      simp only [if_true, StateT.run_bind]
      cases hfiles : disk.writeFiles (files.under out) with
      | mk result disk' =>
        unfold Disk.writeFiles at hfiles
        rw [hfiles]
        cases result with
        | error e => exact .stuck hrender hwrites hfiles
        | ok _ => exact .written hrender hwrites hfiles

theorem compileFileOn_eq (p : Pipeline) (input : Path) (target : String) (out : Path)
    (disk : Disk) :
    p.compileFileOn input target out disk =
      match disk.readTree input with
      | .error e => (.error e, disk)
      | .ok t => p.compileOn t target out disk := by
  unfold compileFileOn compileFile
  rw [StateT.run_bind, Disk.run_read]
  cases disk.readTree input <;> rfl

end Pipeline

/-! ## Where files are -/

theorem Pipeline.generate_of_render {p : Pipeline} {t : Tree} {target : String} {files : Files}
    (h : p.render t target = .ok files) :
    isIdentifier p.config.holderType = true ∧
      t.generate (p.config.options .java) = .ok files := by
  obtain ⟨o, ho, h⟩ := bind_eq_ok_iff.1 h
  obtain ⟨_, hcheck, ho⟩ := bind_eq_ok_iff.1 ho
  refine ⟨(Config.check_eq_ok_iff.1 (eq_ok_of_mapError hcheck)).holderType, ?_⟩
  unfold Target.named? at ho
  split at ho
  · next found hfound =>
    split at hfound
    · cases hfound
      cases ho
      exact eq_ok_of_mapError h
    · cases hfound
  · cases ho

theorem Path.contained_of_compare {p q : Path} (h : compare p q = .eq) (hq : q.Contained) :
    p.Contained :=
  (Path.contained_congr (Path.compare_eq_iff.1 h)).2 hq

theorem Options.contained_filePath_iff {o : Options} {package : Option String} {stem : String} :
    (o.filePath package stem).Contained ↔
      (∀ name, package = some name →
        ∀ part ∈ splitText '.' name, (⟨part⟩ : Path).isAbsolute = false) ∧
      (⟨stem ++ "." ++ o.target.extension⟩ : Path).Contained := by
  cases package with
  | none => simp [Options.filePath]
  | some name =>
    simp only [Options.filePath, Path.contained_join_iff, Path.contained_ofDotted_iff,
      Option.some.injEq, forall_eq']

/-- The Java file of an identifier leads down. -/
theorem Path.contained_of_isIdentifier {name : String} (h : isIdentifier name = true) :
    (⟨name ++ "." ++ "java"⟩ : Path).Contained := by
  have hlead : (⟨name ++ "." ++ "java"⟩ : Path).lead = [] := by
    rw [String.append_assoc]
    exact Path.lead_of_isIdentifier h _
  have hslash : '/' ∉ (name ++ "." ++ "java").toList := by
    simp [slash_notMem_of_isIdentifier h]
  have hup : ".." ∉ splitText '/' (name ++ "." ++ "java") := by
    rw [splitText_eq_singleton hslash, List.mem_singleton]
    intro he
    have hj : 'j' ∈ "..".toList := by
      rw [he]
      simp
    revert hj
    decide
  rw [Path.Contained, Path.components_eq, hlead, List.nil_append]
  exact ⟨Path.root_notMem_steps _, Path.parent_notMem_steps hup⟩

namespace Tree

variable {t : Tree} {o : Options}

/-- No name of a package or a type leads anywhere but down. -/
structure LeadsDown (t : Tree) (o : Options) : Prop where
  /-- No part of the name of a package with files starts at the root. -/
  package : ∀ id ∈ t.walk, t.isType id = true ∨ t.isFunction id = true →
    ∀ package, o.namer.package t id = some package →
      ∀ part ∈ splitText '.' package, (⟨part⟩ : Path).isAbsolute = false
  /-- The file name of a type does not start at the root and has no step up. -/
  type : ∀ id ∈ t.walk, ∀ form name parameters definitions,
    t.kind? id = some (.typeDef form name parameters definitions) →
      (⟨name.text ++ "." ++ o.target.extension⟩ : Path).Contained

theorem isType_of_kind? {id : NodeId} {form : TypeForm} {name : Name}
    {parameters definitions : List NodeId}
    (hk : t.kind? id = some (.typeDef form name parameters definitions)) : t.isType id = true := by
  rw [isType, hk]
  rfl

section

variable {typeFiles holderFiles : List (Path × String)} (hcovers : t.Covers o typeFiles holderFiles)
include hcovers

theorem LeadsDown.contained (hdown : t.LeadsDown o) (hholder : isIdentifier o.holderType = true)
    (hjava : o.target = .java) : ∀ file ∈ typeFiles ++ holderFiles, file.1.Contained := by
  intro file hfile
  rcases List.mem_append.1 hfile with hfile | hfile
  · obtain ⟨id, hid, form, name, parameters, definitions, _, hk, _, rfl⟩ :=
      hcovers.type_of_file file hfile
    exact Options.contained_filePath_iff.2 ⟨hdown.package id hid (.inl (isType_of_kind? hk)),
      hdown.type id hid form name parameters definitions hk⟩
  · obtain ⟨id, hid, hfunction, _, _, _, _, _, _, rfl⟩ := hcovers.function_of_file file hfile
    refine Options.contained_filePath_iff.2 ⟨hdown.package id hid (.inr hfunction), ?_⟩
    rw [hjava]
    exact Path.contained_of_isIdentifier hholder

theorem leadsDown_of_contained (h : ∀ file ∈ typeFiles ++ holderFiles, file.1.Contained) :
    t.LeadsDown o := by
  have htype : ∀ id ∈ t.walk, ∀ form name parameters definitions,
      t.kind? id = some (.typeDef form name parameters definitions) →
      (o.filePath (o.namer.package t id) name.text).Contained := by
    intro id hid form name parameters definitions hk
    obtain ⟨_, hfile, _, _, _, _, _, hk', _, rfl⟩ :=
      hcovers.file_of_type id hid (isType_of_kind? hk)
    cases hk.symm.trans hk'
    have hpath := h _ (List.mem_append_left holderFiles hfile)
    exact hpath
  refine ⟨fun id hid hor => ?_, fun id hid form name parameters definitions hk => ?_⟩
  · rcases hor with histype | hfunction
    · obtain ⟨kind, hk, hdef⟩ := (Option.any_eq_true _ _).1 histype
      cases kind with
      | typeDef => exact (Options.contained_filePath_iff.1 (htype id hid _ _ _ _ hk)).1
      | _ => cases hdef
    · obtain ⟨_, hfile, _, _, _, _, _, _, rfl⟩ := hcovers.file_of_function id hid hfunction
      have hpath := h _ (List.mem_append_right typeFiles hfile)
      exact (Options.contained_filePath_iff.1 hpath).1
  · exact (Options.contained_filePath_iff.1 (htype id hid form name parameters definitions hk)).2

end

theorem contained_project_iff {files : Files} (hholder : isIdentifier o.holderType = true)
    (hjava : o.target = .java) (h : t.project o = .ok files) :
    (∀ path ∈ files.keys, path.Contained) ↔ t.LeadsDown o := by
  obtain ⟨typeFiles, holderFiles, hcovers, rfl⟩ := exists_covers_of_project h
  rw [Table.forall_keys_ofList Path.contained_of_compare]
  exact ⟨leadsDown_of_contained hcovers, fun hdown => hdown.contained hcovers hholder hjava⟩

/-- The support class does not change where files are. -/
theorem contained_generate_iff {files : Files} (hholder : isIdentifier o.holderType = true)
    (hjava : o.target = .java) (h : t.generate o = .ok files) :
    (∀ path ∈ files.keys, path.Contained) ↔ t.LeadsDown o := by
  obtain ⟨projected, hproject, h⟩ := bind_eq_ok_iff.1 h
  split at h
  · obtain ⟨source, _, he⟩ := bind_eq_ok_iff.1 h
    cases he
    have hsupport : (⟨Support.fileName o⟩ : Path).Contained := by
      rw [Support.fileName, hjava]
      exact Path.contained_of_isIdentifier (by decide +kernel)
    rw [Table.forall_keys_insert Path.contained_of_compare, and_iff_right hsupport]
    exact contained_project_iff hholder hjava hproject
  · cases h
    exact contained_project_iff hholder hjava hproject

end Tree

namespace Pipeline

/-- The files that a compilation writes lie below the output directory when no name of the
tree leads out of it.  With a relative output directory they do so only then. -/
theorem isBelow_iff_leadsDown (p : Pipeline) (t : Tree) (target : String) (out : Path)
    (disk disk' : Disk) (result : Compilation) (hwrites : p.isEnabled .write = true)
    (hcompile : p.compileOn t target out disk = (.ok result, disk')) :
    (t.LeadsDown (p.config.options .java) → ∀ path ∈ result.files.keys, out.IsBelow path) ∧
    (out.isAbsolute = false → out.components ≠ [] →
      (∀ path ∈ result.files.keys, out.IsBelow path) → t.LeadsDown (p.config.options .java)) := by
  have hends := p.ends_compileOn t target out disk
  rw [hcompile] at hends
  cases hends with
  | kept _ hoff =>
    rw [hoff] at hwrites
    cases hwrites
  | @written files _ hrender _ _ =>
    obtain ⟨hholder, hgenerate⟩ := generate_of_render hrender
    have hsame : ∀ {a b : Path}, compare a b = .eq → out.IsBelow b → out.IsBelow a := by
      intro a b heq hb
      rwa [Path.IsBelow, Path.compare_eq_iff.1 heq]
    have hfiles : (∀ path ∈ (Table.ofList (files.under out)).keys, out.IsBelow path) ↔
        ∀ path ∈ files.keys, out.IsBelow (out.join path.text) := by
      rw [Table.forall_keys_ofList hsame]
      simp only [Files.under, Table.keys, List.forall_mem_map]
    rw [hfiles, ← Tree.contained_generate_iff hholder rfl hgenerate]
    refine ⟨fun hcontained path hpath => Path.isBelow_join out (hcontained path hpath), ?_⟩
    intro hrelative hsomewhere hbelow path hpath
    exact Path.contained_of_isBelow_join hrelative hsomewhere (hbelow path hpath)

/-- No name of the packages and the class of this tree leads out. -/
theorem leadsDown_splitPackage : Tree.splitPackage.LeadsDown (Config.options {} .java) := by
  have hparts : ∀ id ∈ Tree.splitPackage.walk,
      ∀ part ∈ (((Config.options {} .java).namer.package Tree.splitPackage id).elim []
        (splitText '.')), (⟨part⟩ : Path).isAbsolute = false := by decide +kernel
  have hnames : ∀ id ∈ Tree.splitPackage.walk,
      ∀ name ∈ (Tree.splitPackage.kind? id).bind Kind.name?,
        (⟨name.text ++ "." ++ "java"⟩ : Path).Contained := by decide +kernel
  refine ⟨fun id hid _ package hpackage part hpart => ?_,
    fun id hid form name parameters definitions hk => ?_⟩
  · exact hparts id hid part (by rwa [hpackage])
  · exact hnames id hid name (by rw [hk]; rfl)

theorem isBelow_splitPackage :
    ∃ result disk', compileOn {} Tree.splitPackage "java" ⟨"out"⟩ {} = (.ok result, disk') ∧
      result.files.keys = [⟨"out/a/Functions.java"⟩, ⟨"out/b/Functions.java"⟩] ∧
      ∀ path ∈ result.files.keys, Path.IsBelow ⟨"out"⟩ path := by
  have hkeys : (compileOn {} Tree.splitPackage "java" ⟨"out"⟩ {}).1.toOption.map
      (fun result => result.files.keys) =
      some [⟨"out/a/Functions.java"⟩, ⟨"out/b/Functions.java"⟩] := by decide +kernel
  obtain ⟨result, hresult, hkeys⟩ := Option.map_eq_some_iff.1 hkeys
  have hcompile : compileOn {} Tree.splitPackage "java" ⟨"out"⟩ {} =
      (.ok result, (compileOn {} Tree.splitPackage "java" ⟨"out"⟩ {}).2) :=
    Prod.ext (eq_ok_of_toOption hresult) rfl
  exact ⟨result, _, hcompile, hkeys, (isBelow_iff_leadsDown {} Tree.splitPackage "java" ⟨"out"⟩ {} _
    result rfl hcompile).1 leadsDown_splitPackage⟩

/-- A class whose name has a step up. -/
def climbingClass : Tree where
  nodes := #[
    { kind := .root [⟨1⟩] },
    { kind := .typeDef .classType { text := "../up" } [] [], parent := some ⟨0⟩ }]
  root := ⟨0⟩
  wellFormed := Tree.wellFormed_of_ofParts (by decide)

/-- Its file is written beside the output directory. -/
theorem not_isBelow_climbingClass :
    ∃ result disk', compileOn {} climbingClass "java" ⟨"out"⟩ {} = (.ok result, disk') ∧
      ⟨"out/../up.java"⟩ ∈ result.files.keys ∧
      ¬ Path.IsBelow ⟨"out"⟩ ⟨"out/../up.java"⟩ ∧
      disk'.contents ["up.java"] = some (some "public class ../up \x7b\x7d") := by
  have hkeys : (compileOn {} climbingClass "java" ⟨"out"⟩ {}).1.toOption.map
      (fun result => result.files.keys) = some [⟨"out/../up.java"⟩] := by decide +kernel
  obtain ⟨result, hresult, hkeys⟩ := Option.map_eq_some_iff.1 hkeys
  refine ⟨result, (compileOn {} climbingClass "java" ⟨"out"⟩ {}).2,
    Prod.ext (eq_ok_of_toOption hresult) rfl, ?_, by decide +kernel, by decide +kernel⟩
  rw [hkeys]
  exact List.mem_singleton_self _

end Pipeline

end Emitter
