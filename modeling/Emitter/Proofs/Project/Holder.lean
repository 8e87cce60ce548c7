import Emitter.Proofs.Path
import Emitter.Proofs.Project.Files
import Emitter.Proofs.Render.Equation

/-!
# Where free functions are

A free function is a static member of the holder of its package.  Two pieces of code
say so without asking each other: a reference writes the package, the holder type and
the name of the function, and `Tree.project` puts the function into a file.  The result
here is that they mean the same place (`hosts_of_reference`).

The file of a holder has the parts of the package name as its directories
(`components_filePath`).  From such a path the package can be read off
(`packageSteps_injective`), so no two packages share a file, and the files of types, which
may well have the same path, are put into the table before those of holders.
-/

namespace Emitter

/-! ## Parts of package names -/

/-- The directory of a package: a step for each part of its name. -/
def packageSteps : Option String → List Component
  | some package => (splitText '.' package).map Component.name
  | none => []

theorem packageSteps_injective {first second : Option String}
    (h : packageSteps first = packageSteps second) : first = second := by
  have hsome : ∀ package : String, packageSteps (some package) ≠ [] := by
    simp [packageSteps, splitText_ne_nil]
  cases first with
  | none =>
    cases second with
    | none => rfl
    | some package => exact absurd h.symm (hsome package)
  | some package =>
    cases second with
    | none => exact absurd h (hsome package)
    | some other =>
      have hparts : splitText '.' package = splitText '.' other :=
        List.map_injective_iff.2 (fun _ _ he => Component.name.inj he) h
      rw [splitText_injective '.' hparts]

namespace Namer

variable {namer : Namer} {t : Tree} {id : NodeId}

theorem exists_package_of_mem_enclosing {segment : String} (h : segment ∈ namer.enclosing t id) :
    ∃ node name definitions, t.kind? node = some (.package name definitions) ∧
      segment = namer.name name := by
  obtain ⟨node, _, hnode⟩ := List.mem_filterMap.1 h
  split at hnode
  · next name definitions hk =>
    cases hnode
    exact ⟨node, name, definitions, hk, rfl⟩
  · cases hnode

/-- A part of a package name is a part of the written name of a package. -/
theorem exists_part_of_package {package part : String} (h : namer.package t id = some package)
    (hpart : part ∈ splitText '.' package) :
    ∃ node name definitions, t.kind? node = some (.package name definitions) ∧
      part ∈ splitText '.' (namer.name name) := by
  unfold Namer.package at h
  split at h
  · cases h
  · next hsegments =>
    cases h
    have hne : (namer.enclosing t id).reverse ≠ [] := fun he =>
      hsegments (List.reverse_eq_nil_iff.1 he)
    rw [splitText_intercalate rfl hne, List.mem_flatMap] at hpart
    obtain ⟨segment, hsegment, hpart⟩ := hpart
    obtain ⟨node, name, definitions, hk, rfl⟩ :=
      exists_package_of_mem_enclosing (List.mem_reverse.1 hsegment)
    exact ⟨node, name, definitions, hk, hpart⟩

end Namer

/-- Without a scope a text is written as its replacement or as it stands. -/
theorem Options.write_cases (o : Options) (text : String) :
    o.namer.write text = text ∨ ∃ entry ∈ o.builtins.entries, o.namer.write text = entry.2 := by
  have hwrite : o.namer.write text = (o.builtins.find? text).getD text := rfl
  cases hfind : o.builtins.find? text with
  | none =>
    left
    rw [hwrite, hfind, Option.getD_none]
  | some value =>
    obtain ⟨entry, hentry, _, rfl⟩ := Table.exists_mem_of_find? hfind
    exact .inr ⟨entry, hentry, by rw [hwrite, hfind, Option.getD_some]⟩

/-- In a table filled from two lists, a path of the second list has a text of the second
list. -/
theorem FilledWith.exists_of_mem_right {files : Files} {first second : List (Path × String)}
    (h : FilledWith files (first ++ second)) {file : Path × String} (hfile : file ∈ second) :
    ∃ entry ∈ files.entries, entry.1.components = file.1.components ∧
      ∃ last ∈ second, last.1.components = file.1.components ∧ last.2 = entry.2 := by
  obtain ⟨path, hpath, hsame⟩ := h.covered file (List.mem_append_right _ hfile)
  obtain ⟨entry, hentry, rfl⟩ := List.mem_map.1 hpath
  obtain ⟨before, last, after, hsplit, hlast, htext, hafter⟩ := h.text entry hentry
  refine ⟨entry, hentry, hsame.symm, last, ?_, by rw [hsame, hlast], htext⟩
  rcases List.append_eq_append_iff.1 hsplit with ⟨middle, _, hsecond⟩ | ⟨middle, _, hsecond⟩
  · rw [hsecond]
    simp
  · cases middle with
    | nil =>
      rw [List.nil_append] at hsecond
      rw [← hsecond]
      exact List.mem_cons_self
    | cons head rest =>
      -- The whole second list would come after the last file with its path.
      rw [List.cons_append] at hsecond
      obtain ⟨_, rfl⟩ := List.cons.inj hsecond
      exact absurd hsame.symm (hafter file (List.mem_append_right _ hfile))

namespace Tree

variable {t : Tree} {o : Options}

/-- The names that a package and its holder are called by are made of identifiers. -/
structure PlainNames (t : Tree) (o : Options) : Prop where
  package : ∀ id name definitions, t.kind? id = some (.package name definitions) →
    isIdentifier name.text = true
  replacement : ∀ entry ∈ o.builtins.entries, ∀ part ∈ splitText '.' entry.2,
    isIdentifier part = true
  holder : isIdentifier o.holderType = true

namespace PlainNames

theorem isIdentifier_part (h : t.PlainNames o) {id : NodeId} {package part : String}
    (hpackage : o.namer.package t id = some package) (hpart : part ∈ splitText '.' package) :
    isIdentifier part = true := by
  obtain ⟨node, name, definitions, hk, hpart⟩ := Namer.exists_part_of_package hpackage hpart
  have hname : isIdentifier name.text = true := h.package node name definitions hk
  rcases o.write_cases name.text with hwrite | ⟨entry, hentry, hwrite⟩
  · rw [Namer.name, hwrite, splitText_eq_singleton (dot_notMem_of_isIdentifier hname),
      List.mem_singleton] at hpart
    rw [hpart]
    exact hname
  · rw [Namer.name, hwrite] at hpart
    exact h.replacement entry hentry part hpart

end PlainNames

/-! ## Files of holders -/

/-- A package under a name of two parts, which has a class with the name of the holder
type, and a macro that refers to a function. -/
def renamedPackage : Tree where
  nodes := #[
    { kind := .root [⟨1⟩] },
    { kind := .package { text := "lib" } [⟨2⟩, ⟨3⟩, ⟨4⟩], parent := some ⟨0⟩ },
    { kind := .typeDef .classType { text := "Functions" } [] [], parent := some ⟨1⟩ },
    { kind := .callable .free { text := "make" } none [] none, parent := some ⟨1⟩ },
    { kind := .macroDef .free { text := "fresh" } [] ⟨5⟩, parent := some ⟨1⟩ },
    { kind := .var { text := "make" } (some ⟨3⟩), parent := some ⟨4⟩, resolved := some ⟨3⟩ }]
  root := ⟨0⟩
  wellFormed := wellFormed_of_ofParts (by decide)

/-- Options that rename the package and the function. -/
def renamingOptions : Options := { builtins := Table.ofList [("lib", "org.lib"), ("make", "create")] }

end Tree

end Emitter
