import Emitter.Proofs.Project.Holder
import Emitter.Proofs.Render.Declaration

/-!
# Files of types

The path of a type's file, the identifier that the file declares and the package in its header
are written by different pieces of code.  `Tree.NamedAfter` says that they fit together: the
file is named after the type, and the header is made of the directories of the path.

They fit exactly when two things hold (`namedAfter_iff`).  The built-in table leaves the name of
the type as it is, because the path has the name and the declaration has what the table makes of
it.  And each part of the package name is one directory, because the path is made of the parts
and the header of the whole.
-/

namespace Emitter

/-- The steps into the directory of a package. -/
def packageDirectory : Option String → List Component
  | some package => (Path.ofDotted package).components
  | none => []

/-- The package that directories stand for: their names joined with dots. -/
def packageOf : List String → Option String
  | [] => none
  | dirs => some (".".intercalate dirs)

theorem packageOf_splitText (package : String) :
    packageOf (splitText '.' package) = some package := by
  cases hparts : splitText '.' package with
  | nil => exact absurd hparts (splitText_ne_nil _ _)
  | cons first rest =>
    show some (".".intercalate (first :: rest)) = some package
    rw [← hparts, intercalate_splitText_dot]

/-- A text with a header determines the package of the header. -/
theorem withPackage_header_injective {first second : Option String} {body : String}
    (h : withPackage first body = withPackage second body) : first = second := by
  have hlength : ∀ package : String, withPackage (some package) body ≠ body := by
    intro package heq
    have hchars := congrArg (fun text => text.toList.length) heq
    simp only [withPackage, String.toList_append, List.length_append] at hchars
    have hword : "package ".toList.length = 8 := by decide
    omega
  cases first with
  | none =>
    cases second with
    | none => rfl
    | some package => exact absurd h.symm (hlength package)
  | some package =>
    cases second with
    | none => exact absurd h (hlength package)
    | some other =>
      simp only [withPackage, String.append_left_inj, String.append_right_inj] at h
      rw [h]

namespace Tree

variable {t : Tree} {o : Options} {id : NodeId}

/-- The file of a type is in the directories `dirs` under the name `stem`, and its text declares
`stem` under the header of the package that the directories stand for. -/
structure NamedAfter (t : Tree) (o : Options) (form : TypeForm) (id : NodeId)
    (file : Path × String) (dirs : List String) (stem : String) : Prop where
  path : file.1.components =
    dirs.map Component.name ++ [.name (stem ++ "." ++ o.target.extension)]
  text : ∃ back, t.declarationFrame o id = .ok ("public " ++ form.keyword ++ " ", back) ∧
    t.stmtText o id = .ok ("public " ++ form.keyword ++ " " ++ stem ++ back) ∧
    file.2 = withPackage (packageOf dirs) ("public " ++ form.keyword ++ " " ++ stem ++ back)

/-- Every type of the walk has a file. -/
theorem exists_typeFile_of_project {files : Files} (h : t.project o = .ok files)
    (hid : id ∈ t.walk) (htype : t.isType id = true) : ∃ file, t.typeFile o id = .ok file := by
  obtain ⟨items, hitems, h⟩ := bind_eq_ok_iff.1 h
  obtain ⟨types, htypes, _⟩ := bind_eq_ok_iff.1 h
  rw [types_of_topLevel hitems] at htypes
  obtain ⟨_, file, hfile⟩ := exists_of_collect_eq_ok htypes (List.mem_filter.2 ⟨hid, htype⟩)
  exact ⟨file, hfile⟩

/-- A plain file name is the last component of the path of a file. -/
theorem components_filePath_of_isPlain {package : Option String} {stem : String}
    (h : Path.IsPlain (stem ++ "." ++ o.target.extension)) :
    (o.filePath package stem).components =
      packageDirectory package ++ [.name (stem ++ "." ++ o.target.extension)] := by
  cases package with
  | none => exact h
  | some package =>
    show ((Path.ofDotted package).join _).components = (Path.ofDotted package).components ++ _
    rw [Path.components_join_of_lead h.lead, h.steps]

theorem declarationFrame_typeDef {form : TypeForm} {name : Name}
    {parameters definitions : List NodeId} {front back : String}
    (hk : t.kind? id = some (.typeDef form name parameters definitions))
    (h : t.declarationFrame o id = .ok (front, back)) :
    front = "public " ++ form.keyword ++ " " := by
  rw [declarationFrame, hk] at h
  obtain ⟨_, _, h⟩ := bind_eq_ok_iff.1 h
  obtain ⟨_, _, h⟩ := bind_eq_ok_iff.1 h
  obtain ⟨_, _, he⟩ := bind_eq_ok_iff.1 h
  cases he
  rfl

section

variable {form : TypeForm} {name : Name} {parameters definitions : List NodeId}
  {file : Path × String} (hk : t.kind? id = some (.typeDef form name parameters definitions))
  (hfile : t.typeFile o id = .ok file)

include hk hfile

theorem typeFile_eq : ∃ text, t.stmtText o id = .ok text ∧
    file = (o.filePath (o.namer.package t id) name.text,
      withPackage (o.namer.package t id) text) := by
  rw [typeFile, hk] at hfile
  obtain ⟨text, htext, he⟩ := bind_eq_ok_iff.1 hfile
  cases he
  exact ⟨text, htext, rfl⟩

variable (hplain : Path.IsPlain (name.text ++ "." ++ o.target.extension))

include hplain

/-- A file that is named after its type has the name of the type, which the table leaves as it
is, and a package with plain parts. -/
theorem NamedAfter.fits {dirs : List String} {stem : String}
    (h : t.NamedAfter o form id file dirs stem) :
    o.namer.name name = name.text ∧
      ∀ package, o.namer.package t id = some package →
        ∀ part ∈ splitText '.' package, Path.IsPlain part := by
  obtain ⟨hpath, back, hframe, htext, hheader⟩ := h
  obtain ⟨text, htext', rfl⟩ := typeFile_eq hk hfile
  rw [components_filePath_of_isPlain hplain] at hpath
  obtain ⟨hdirs, hlast⟩ := List.append_inj' hpath rfl
  have hstem : stem = name.text := by
    have hnames := Component.name.inj (List.cons.inj hlast).1
    simpa only [String.append_left_inj] using hnames.symm
  have hname : (t.kind? id).bind Kind.name? = some name := by
    rw [hk]
    rfl
  have hdeclared : t.DeclaredAs o id stem := ⟨_, back, hframe, htext⟩
  refine ⟨by rw [← hdeclared.eq_name hname, hstem], fun package hpackage => ?_⟩
  have hsame : some package = packageOf dirs := by
    cases htext.symm.trans htext'
    rw [← hpackage]
    exact withPackage_header_injective hheader
  rw [hpackage] at hdirs
  cases dirs with
  | nil => cases hsame
  | cons first rest =>
    exact Path.isPlain_of_components_ofDotted hdirs (List.cons_ne_nil _ _) (Option.some.inj hsame)

theorem namedAfter_of_fits (hkept : o.namer.name name = name.text)
    (hparts : ∀ package, o.namer.package t id = some package →
      ∀ part ∈ splitText '.' package, Path.IsPlain part) :
    t.NamedAfter o form id file ((o.namer.package t id).elim [] (splitText '.')) name.text := by
  obtain ⟨text, htext, rfl⟩ := typeFile_eq hk hfile
  have hname : (Kind.typeDef form name parameters definitions).name? = some name := rfl
  obtain ⟨front, back, hframe, hdeclared⟩ := declaredAs_of_stmtText hk rfl hname htext
  cases declarationFrame_typeDef hk hframe
  rw [hkept] at hdeclared
  have hheader : packageOf ((o.namer.package t id).elim [] (splitText '.')) =
      o.namer.package t id := by
    cases o.namer.package t id with
    | none => rfl
    | some package => exact packageOf_splitText package
  refine ⟨?_, back, hframe, hdeclared, ?_⟩
  · rw [components_filePath_of_isPlain hplain]
    cases hpackage : o.namer.package t id with
    | none => rfl
    | some package =>
      show (Path.ofDotted package).components ++ _ = (splitText '.' package).map Component.name ++ _
      rw [Path.components_ofDotted_of_isPlain (hparts package hpackage)]
  · cases htext.symm.trans hdeclared
    rw [hheader]

end

/-- The file of a type whose name is one segment is named after the type, with the directories of
its package, exactly when the built-in table leaves the name as it is and every part of the
package name is one segment. -/
theorem namedAfter_iff {files : Files} {form : TypeForm} {name : Name}
    {parameters definitions : List NodeId} (h : t.project o = .ok files) (hid : id ∈ t.walk)
    (hk : t.kind? id = some (.typeDef form name parameters definitions))
    (hplain : Path.IsPlain (name.text ++ "." ++ o.target.extension)) :
    ∃ file, t.typeFile o id = .ok file ∧
      ((∃ dirs stem, t.NamedAfter o form id file dirs stem) ↔
        o.namer.name name = name.text ∧
          ∀ package, o.namer.package t id = some package →
            ∀ part ∈ splitText '.' package, Path.IsPlain part) := by
  have htype : t.isType id = true := by
    rw [isType, hk]
    rfl
  obtain ⟨file, hfile⟩ := exists_typeFile_of_project h hid htype
  refine ⟨file, hfile, ?_, ?_⟩
  · rintro ⟨dirs, stem, hnamed⟩
    exact hnamed.fits hk hfile hplain
  · rintro ⟨hkept, hparts⟩
    exact ⟨_, _, namedAfter_of_fits hk hfile hplain hkept hparts⟩

/-- A class in a package that is written as two parts. -/
theorem namedAfter_renamedPackage :
    (∃ files, renamedPackage.project renamingOptions = .ok files) ∧ ⟨2⟩ ∈ renamedPackage.walk ∧
    Path.IsPlain "Functions.java" ∧
    ∃ file, renamedPackage.typeFile renamingOptions ⟨2⟩ = .ok file ∧
      ∃ dirs stem, renamedPackage.NamedAfter renamingOptions .classType ⟨2⟩ file dirs stem := by
  have hsome : (renamedPackage.project renamingOptions).toOption.isSome = true := by decide +kernel
  obtain ⟨files, hfiles⟩ := Option.isSome_iff_exists.1 hsome
  have hproject := eq_ok_of_toOption hfiles
  have hwalk : ⟨2⟩ ∈ renamedPackage.walk := by decide +kernel
  have hk : renamedPackage.kind? ⟨2⟩ = some (.typeDef .classType { text := "Functions" } [] []) :=
    rfl
  have hplain : Path.IsPlain "Functions.java" := by decide +kernel
  have hpackage : renamingOptions.namer.package renamedPackage ⟨2⟩ = some "org.lib" := by
    decide +kernel
  obtain ⟨file, hfile, hiff⟩ := namedAfter_iff hproject hwalk hk hplain
  refine ⟨⟨files, hproject⟩, hwalk, hplain, file, hfile, hiff.2 ⟨by decide +kernel, ?_⟩⟩
  intro package hsame
  cases hpackage.symm.trans hsame
  decide +kernel

/-- A class with a name of the built-in table, and a class in a package whose name has a
separator. -/
def misnamedTypes : Tree where
  nodes := #[
    { kind := .root [⟨1⟩, ⟨2⟩] },
    { kind := .typeDef .classType { text := "List" } [] [], parent := some ⟨0⟩ },
    { kind := .package { text := "a/b" } [⟨3⟩], parent := some ⟨0⟩ },
    { kind := .typeDef .classType { text := "C" } [] [], parent := some ⟨2⟩ }]
  root := ⟨0⟩
  wellFormed := wellFormed_of_ofParts (by decide)

/-- Neither file is named after its type and its package. -/
theorem not_namedAfter_misnamedTypes :
    (∃ files, misnamedTypes.project {} = .ok files ∧ files.entries =
      [(⟨"List.java"⟩, "public class java.util.ArrayList \x7b\x7d"),
        (⟨"a/b/C.java"⟩, "package a/b;\n\npublic class C \x7b\x7d")]) ∧
    (∃ file, misnamedTypes.typeFile {} ⟨1⟩ = .ok file ∧
      ¬ ∃ dirs stem, misnamedTypes.NamedAfter {} .classType ⟨1⟩ file dirs stem) ∧
    ∃ file, misnamedTypes.typeFile {} ⟨3⟩ = .ok file ∧
      ¬ ∃ dirs stem, misnamedTypes.NamedAfter {} .classType ⟨3⟩ file dirs stem := by
  have hfiles : (misnamedTypes.project {}).toOption.map Table.entries =
      some [(⟨"List.java"⟩, "public class java.util.ArrayList \x7b\x7d"),
        (⟨"a/b/C.java"⟩, "package a/b;\n\npublic class C \x7b\x7d")] := by decide +kernel
  obtain ⟨files, hproject, hentries⟩ := Option.map_eq_some_iff.1 hfiles
  have hok := eq_ok_of_toOption hproject
  have hlist : misnamedTypes.kind? ⟨1⟩ = some (.typeDef .classType { text := "List" } [] []) := rfl
  have hclass : misnamedTypes.kind? ⟨3⟩ = some (.typeDef .classType { text := "C" } [] []) := rfl
  have hwalk : misnamedTypes.walk = [⟨1⟩, ⟨3⟩] := by decide +kernel
  obtain ⟨first, hfirst⟩ : ∃ file, misnamedTypes.typeFile {} ⟨1⟩ = .ok file :=
    exists_typeFile_of_project hok (by rw [hwalk]; decide) rfl
  obtain ⟨second, hsecond⟩ : ∃ file, misnamedTypes.typeFile {} ⟨3⟩ = .ok file :=
    exists_typeFile_of_project hok (by rw [hwalk]; decide) rfl
  refine ⟨⟨files, hok, hentries⟩, ⟨first, hfirst, ?_⟩, second, hsecond, ?_⟩
  · rintro ⟨dirs, stem, hnamed⟩
    exact absurd (hnamed.fits hlist hfirst (by decide +kernel)).1 (by decide +kernel)
  · rintro ⟨dirs, stem, hnamed⟩
    have hpackage : (Options.namer {}).package misnamedTypes ⟨3⟩ = some "a/b" := by decide +kernel
    have hparts := (hnamed.fits hclass hsecond (by decide +kernel)).2 _ hpackage
    exact absurd (hparts "a/b" (by decide +kernel)) (by decide +kernel)

end Tree

end Emitter
