import Emitter.Proofs.Project.Walk
import Emitter.Proofs.Render.Equation
import Emitter.Proofs.Table

/-!
# The files of a tree

What `Tree.project` puts into the table of files, said in terms of the walk.

* `FirstOccurrences` is the order of packages: each once, by the first function
  that is in it;
* `Tree.IsTypeFile` and `Tree.IsHolderFile` say what one file is: a path and a text;
* `FilledWith` says what a table holds after files were put into it one by one:
  the paths in the order of their components, under each the text of the last file
  with that path;
* `Tree.Covers` says the same of the files before they are put into the table, node
  by node.
-/

namespace Emitter

/-! ## First occurrences -/

/-- The members of a list, each once and in the order in which they are first met. -/
structure FirstOccurrences {α : Type} [BEq α] (all once : List α) : Prop where
  nodup : once.Nodup
  mem_iff : ∀ x, x ∈ once ↔ x ∈ all
  ordered : once.Pairwise fun x y => all.idxOf x < all.idxOf y

theorem firstOccurrences_eraseDups {α : Type} [BEq α] [LawfulBEq α] (all : List α) :
    FirstOccurrences all all.eraseDups := by
  induction all using List.reverseRecOn with
  | nil => exact ⟨List.nodup_nil, by simp, List.Pairwise.nil⟩
  | append_singleton all x ih =>
    -- The position of what was there before stays as it was.
    have hkeep : ∀ y ∈ all, (all ++ [x]).idxOf y = all.idxOf y := fun y hy =>
      List.idxOf_append_of_mem hy
    have hordered : all.eraseDups.Pairwise fun y z => (all ++ [x]).idxOf y < (all ++ [x]).idxOf z :=
      ih.ordered.imp_of_mem fun hy hz hlt => by
        rwa [hkeep _ ((ih.mem_iff _).1 hy), hkeep _ ((ih.mem_iff _).1 hz)]
    rw [List.eraseDups_append]
    by_cases hx : x ∈ all
    · have hnew : [x].removeAll all = [] := by simp [List.removeAll, hx]
      rw [hnew, List.eraseDups_nil, List.append_nil]
      refine ⟨ih.nodup, fun y => ?_, hordered⟩
      rw [ih.mem_iff, List.mem_append, List.mem_singleton]
      exact ⟨.inl, fun h => h.elim id fun he => he ▸ hx⟩
    · have hnew : ([x].removeAll all).eraseDups = [x] := by
        simp [List.removeAll, hx, List.eraseDups_cons]
      have hfresh : x ∉ all.eraseDups := fun h => hx ((ih.mem_iff x).1 h)
      rw [hnew]
      refine ⟨?_, fun y => ?_, ?_⟩
      · exact List.nodup_append.2 ⟨ih.nodup, List.nodup_singleton x, by
          rintro y hy z hz rfl
          rw [List.mem_singleton.1 hz] at hy
          exact hfresh hy⟩
      · rw [List.mem_append, List.mem_append, ih.mem_iff]
      · refine List.pairwise_append.2 ⟨hordered, List.pairwise_singleton _ x, fun y hy z hz => ?_⟩
        have hy := (ih.mem_iff y).1 hy
        rw [List.mem_singleton.1 hz, hkeep y hy, List.idxOf_append_of_notMem hx]
        exact Nat.lt_of_lt_of_le (List.idxOf_lt_length_of_mem hy) (Nat.le_add_right _ _)

/-! ## Paths -/

theorem Component.eq_of_compare_eq {a b : Component} (h : compare a b = .eq) : a = b := by
  have hboth : compare a.rank b.rank = .eq ∧ compare a.label b.label = .eq := by
    simpa only [compare, compareLex, compareOn, Ordering.then_eq_eq] using h
  have hrank : a.rank = b.rank := Std.LawfulEqOrd.eq_of_compare hboth.1
  have hlabel : a.label = b.label := Std.LawfulEqOrd.eq_of_compare hboth.2
  cases a <;> cases b <;> simp_all [rank, label]

instance : Std.LawfulEqOrd Component where
  eq_of_compare := Component.eq_of_compare_eq

theorem Path.compare_eq_iff {p q : Path} : compare p q = .eq ↔ p.components = q.components :=
  Std.LawfulEqOrd.compare_eq_iff_eq (a := p.components) (b := q.components)

/-! ## Tables of files -/

/-- What a table holds after files were put into it one by one. -/
structure FilledWith (files : Files) (inserted : List (Path × String)) : Prop where
  /-- The paths ascend in the order of their components. -/
  ascending : files.keys.Pairwise fun p q => compare p.components q.components = .lt
  /-- No two paths have the same components. -/
  distinct : (files.keys.map Path.components).Nodup
  /-- A path is spelled as in the first file that has it. -/
  spelled : ∀ path ∈ files.keys, ∃ before first after, inserted = before ++ first :: after ∧
    first.1 = path ∧ ∀ earlier ∈ before, path.components ≠ earlier.1.components
  /-- Every file has its path in the table. -/
  covered : ∀ file ∈ inserted, ∃ path ∈ files.keys, file.1.components = path.components
  /-- The text under a path is that of the last file that has it. -/
  text : ∀ entry ∈ files.entries, ∃ before last after, inserted = before ++ last :: after ∧
    entry.1.components = last.1.components ∧ last.2 = entry.2 ∧
    ∀ later ∈ after, entry.1.components ≠ later.1.components

theorem filledWith_ofList (inserted : List (Path × String)) :
    FilledWith (Table.ofList inserted) inserted := by
  have hascending : (Table.ofList inserted).keys.Pairwise fun p q =>
      compare p.components q.components = .lt :=
    List.pairwise_map.2 (Table.ofList inserted).ascending
  refine ⟨hascending, ?_, fun path hpath => ?_, fun file hfile => ?_, fun entry hentry => ?_⟩
  · refine List.pairwise_map.2 (hascending.imp fun {p q} hlt heq => ?_)
    rw [heq, Std.ReflOrd.compare_self] at hlt
    cases hlt
  · obtain ⟨before, first, after, hsplit, hfirst, hbefore⟩ := Table.exists_first_of_mem_keys hpath
    exact ⟨before, first, after, hsplit, hfirst,
      fun earlier he heq => hbefore earlier he (Path.compare_eq_iff.2 heq)⟩
  · obtain ⟨path, hpath, heq⟩ := Table.exists_key_of_mem hfile
    exact ⟨path, hpath, Path.compare_eq_iff.1 heq⟩
  · obtain ⟨before, last, after, hsplit, hkey, htext, hafter⟩ :=
      Table.exists_last_of_mem_ofList hentry
    exact ⟨before, last, after, hsplit, Path.compare_eq_iff.1 hkey, htext,
      fun later hl heq => hafter later hl (Path.compare_eq_iff.2 heq)⟩

namespace Tree

variable {t : Tree} {o : Options}

/-! ## One file -/

/-- The file of a type: its rendering under the header of its package. -/
def IsTypeFile (t : Tree) (o : Options) (id : NodeId) (file : Path × String) : Prop :=
  ∃ form name parameters definitions text,
    t.kind? id = some (.typeDef form name parameters definitions) ∧
    t.stmtText o id = .ok text ∧
    file = (o.filePath (o.namer.package t id) name.text, withPackage (o.namer.package t id) text)

/-- The last member of a holder: the entry point, if there is a function `main`. -/
def IsEntry (t : Tree) (o : Options) (functions : List NodeId) (entry : List String) : Prop :=
  ((∃ id ∈ functions, t.isMain id = true) → ∃ text, o.entryPoint = .ok text ∧ entry = [text]) ∧
  ((∀ id ∈ functions, t.isMain id = false) → entry = [])

/-- The file of a package: a class around the renderings of its functions, in
order, and the entry point. -/
def IsHolderFile (t : Tree) (o : Options) (functions : List NodeId) (package : Option String)
    (file : Path × String) : Prop :=
  ∃ members entry body,
    List.Forall₂ (fun id text => t.stmtText o id = .ok text)
      (functions.filter fun id => o.namer.package t id = package) members ∧
    t.IsEntry o (functions.filter fun id => o.namer.package t id = package) entry ∧
    o.braced ("\n".intercalate (members ++ entry)) = .ok body ∧
    file = (o.filePath package o.holderType,
      withPackage package ("public class " ++ o.holderType ++ " " ++ body))

theorem isTypeFile_of_typeFile {id : NodeId} {file : Path × String} (htype : t.isType id = true)
    (h : t.typeFile o id = .ok file) : t.IsTypeFile o id file := by
  obtain ⟨kind, hk, hdef⟩ := (Option.any_eq_true _ _).1 htype
  cases kind with
  | typeDef form name parameters definitions =>
    rw [typeFile, hk] at h
    obtain ⟨text, htext, he⟩ := bind_eq_ok_iff.1 h
    cases he
    exact ⟨form, name, parameters, definitions, text, hk, htext, rfl⟩
  | _ => cases hdef

theorem isHolderFile_of_holderFile {functions : List NodeId} {package : Option String}
    {file : Path × String}
    (h : t.holderFile o package (functions.filter fun id => o.namer.package t id = package) =
      .ok file) : t.IsHolderFile o functions package file := by
  obtain ⟨members, hmembers, h⟩ := bind_eq_ok_iff.1 h
  obtain ⟨entry, hentry, h⟩ := bind_eq_ok_iff.1 h
  obtain ⟨body, hbody, he⟩ := bind_eq_ok_iff.1 h
  cases he
  refine ⟨members, entry, body, collect_eq_ok_iff.1 hmembers, ?_, hbody, rfl⟩
  split at hentry
  · next hmain =>
    obtain ⟨text, htext, he⟩ := bind_eq_ok_iff.1 hentry
    cases he
    refine ⟨fun _ => ⟨text, htext, rfl⟩, fun hnone => ?_⟩
    obtain ⟨id, hid, hid'⟩ := List.any_eq_true.1 hmain
    rw [hnone id hid] at hid'
    cases hid'
  · next hmain =>
    cases hentry
    refine ⟨?_, fun _ => rfl⟩
    rintro ⟨id, hid, hid'⟩
    exact absurd (List.any_eq_true.2 ⟨id, hid, hid'⟩) hmain

/-! ## All files -/

/-- The files of a tree are those of the types of the walk and then those of the
packages with functions, put into a table one by one. -/
theorem filledWith_of_project (t : Tree) (o : Options) (files : Files)
    (h : t.project o = .ok files) :
    t.walk.Nodup ∧
    (∀ id ∈ t.walk, t.isType id = true ∨ t.isFunction id = true ∨ t.isSilent id = true) ∧
    ∃ packages typeFiles holderFiles,
      FirstOccurrences ((t.walk.filter t.isFunction).map (o.namer.package t)) packages ∧
      List.Forall₂ (t.IsTypeFile o) (t.walk.filter t.isType) typeFiles ∧
      List.Forall₂ (t.IsHolderFile o (t.walk.filter t.isFunction)) packages holderFiles ∧
      FilledWith files (typeFiles ++ holderFiles) := by
  obtain ⟨items, hitems, h⟩ := bind_eq_ok_iff.1 h
  obtain ⟨typeFiles, htypes, h⟩ := bind_eq_ok_iff.1 h
  obtain ⟨holderFiles, hholders, he⟩ := bind_eq_ok_iff.1 h
  cases he
  rw [types_of_topLevel hitems] at htypes
  rw [functions_of_topLevel hitems] at hholders
  refine ⟨t.nodup_walk, fun id hid => cases_of_mem_walk hitems hid, _, typeFiles, holderFiles,
    firstOccurrences_eraseDups _, ?_, ?_, filledWith_ofList _⟩
  · refine (forall₂_of_collect_eq_ok htypes).imp fun id file ⟨hid, hfile⟩ => ?_
    exact isTypeFile_of_typeFile (List.mem_filter.1 hid).2 hfile
  · have hall := collect_eq_ok_iff.1 hholders
    simp only [holders, List.forall₂_map_left_iff] at hall
    refine hall.imp fun package file hfile => isHolderFile_of_holderFile ?_
    have hsame : (fun id => decide (o.namer.package t id = package)) =
        fun id => o.namer.package t id == package := by
      funext id
      rw [Bool.eq_iff_iff, decide_eq_true_iff, beq_iff_eq]
    rw [hsame]
    exact hfile

/-- Two lists of files are those of the types of the walk and those of the packages of its
functions: each file is that of a type or a function, and each type or function has one. -/
structure Covers (t : Tree) (o : Options) (typeFiles holderFiles : List (Path × String)) :
    Prop where
  type_of_file : ∀ file ∈ typeFiles, ∃ id ∈ t.walk, t.IsTypeFile o id file
  file_of_type : ∀ id ∈ t.walk, t.isType id = true → ∃ file ∈ typeFiles, t.IsTypeFile o id file
  function_of_file : ∀ file ∈ holderFiles, ∃ id ∈ t.walk, t.isFunction id = true ∧
    t.IsHolderFile o (t.walk.filter t.isFunction) (o.namer.package t id) file
  file_of_function : ∀ id ∈ t.walk, t.isFunction id = true → ∃ file ∈ holderFiles,
    t.IsHolderFile o (t.walk.filter t.isFunction) (o.namer.package t id) file

/-- The table of a tree is filled with a file for each type of the walk, and then with a file
for each package of its functions. -/
theorem exists_rendered_of_project {files : Files} (h : t.project o = .ok files) :
    ∃ typeFiles holderFiles,
      List.Forall₂ (t.IsTypeFile o) (t.walk.filter t.isType) typeFiles ∧
      List.Forall₂ (t.IsHolderFile o (t.walk.filter t.isFunction))
        ((t.walk.filter t.isFunction).map (o.namer.package t)).eraseDups holderFiles ∧
      files = Table.ofList (typeFiles ++ holderFiles) := by
  obtain ⟨items, hitems, h⟩ := bind_eq_ok_iff.1 h
  obtain ⟨typeFiles, htypes, h⟩ := bind_eq_ok_iff.1 h
  obtain ⟨holderFiles, hholders, he⟩ := bind_eq_ok_iff.1 h
  cases he
  rw [types_of_topLevel hitems] at htypes
  rw [functions_of_topLevel hitems] at hholders
  refine ⟨typeFiles, holderFiles, ?_, ?_, rfl⟩
  · refine (forall₂_of_collect_eq_ok htypes).imp fun id file ⟨hid, hfile⟩ => ?_
    exact isTypeFile_of_typeFile (List.mem_filter.1 hid).2 hfile
  · have hall := collect_eq_ok_iff.1 hholders
    simp only [holders, List.forall₂_map_left_iff] at hall
    refine hall.imp fun package file hfile => ?_
    have hrendered : t.holderFile o package ((t.walk.filter t.isFunction).filter
        fun id => o.namer.package t id == package) = .ok file := hfile
    simp only [beq_eq_decide] at hrendered
    exact isHolderFile_of_holderFile hrendered

/-- Node by node, the table of a tree has the files of types and then those of functions. -/
theorem exists_covers_of_project {files : Files} (h : t.project o = .ok files) :
    ∃ typeFiles holderFiles, t.Covers o typeFiles holderFiles ∧
      files = Table.ofList (typeFiles ++ holderFiles) := by
  obtain ⟨typeFiles, holderFiles, htypes, hholders, rfl⟩ := exists_rendered_of_project h
  refine ⟨typeFiles, holderFiles, ⟨fun file hfile => ?_, fun id hid htype => ?_,
    fun file hfile => ?_, fun id hid hfunction => ?_⟩, rfl⟩
  · obtain ⟨id, hid, hown⟩ := exists_partner htypes.flip hfile
    exact ⟨id, (List.mem_filter.1 hid).1, hown⟩
  · exact exists_partner htypes (List.mem_filter.2 ⟨hid, htype⟩)
  · obtain ⟨package, hpackage, hown⟩ := exists_partner hholders.flip hfile
    obtain ⟨id, hid, rfl⟩ := List.mem_map.1 (List.mem_eraseDups.1 hpackage)
    obtain ⟨hid, hfunction⟩ := List.mem_filter.1 hid
    exact ⟨id, hid, hfunction, hown⟩
  · have hpackage : o.namer.package t id ∈
        ((t.walk.filter t.isFunction).map (o.namer.package t)).eraseDups :=
      List.mem_eraseDups.2 (List.mem_map_of_mem (List.mem_filter.2 ⟨hid, hfunction⟩))
    exact exists_partner hholders hpackage

/-- A tree of one class has one file, if the members have texts and these can be set deeper. -/
theorem exists_project_of_class {id : NodeId} {members : List NodeId} {name : Name}
    {texts : List String} (htop : t.topLevel = .ok [.type id])
    (hk : t.kind? id = some (.typeDef .classType name [] members))
    (hpackage : o.namer.package t id = none) (hwidth : o.indentWidth < widthLimit)
    (hmembers : List.Forall₂ (fun member text => t.stmtText o member = .ok text) members texts) :
    ∃ body, t.project o = .ok (Table.ofList [(o.filePath none name.text, body)]) := by
  obtain ⟨body, hbody⟩ : ∃ body,
      o.braced ("\n".intercalate (texts.filter fun text => !text.isEmpty)) = .ok body :=
    ⟨_, Options.braced_of_lt _ hwidth⟩
  obtain ⟨text, htext⟩ : ∃ text, t.stmtText o id = .ok text := by
    rw [stmtText_of_kind? hk]
    have hcollect := collect_eq_ok_iff.2 hmembers
    exact exists_bind_eq_ok rfl (exists_bind_eq_ok hcollect (exists_bind_eq_ok hbody ⟨_, rfl⟩))
  have hfile : t.typeFile o id = .ok (o.filePath none name.text, text) := by
    rw [typeFile, hk]
    refine bind_eq_ok_iff.2 ⟨text, htext, ?_⟩
    rw [hpackage]
    rfl
  have htypes : (collect [id] fun id _ => t.typeFile o id) =
      .ok [(o.filePath none name.text, text)] := collect_eq_ok_iff.2 (.cons hfile .nil)
  exact ⟨text, bind_eq_ok_iff.2 ⟨_, htop, bind_eq_ok_iff.2 ⟨_, htypes, rfl⟩⟩⟩

/-- A package in two parts with another one in between, and a class with the name
of the holder type. -/
def splitPackage : Tree where
  nodes := #[
    { kind := .root [⟨1⟩, ⟨4⟩, ⟨6⟩] },
    { kind := .package { text := "a" } [⟨2⟩, ⟨3⟩], parent := some ⟨0⟩ },
    { kind := .callable .free { text := "f" } none [] none, parent := some ⟨1⟩ },
    { kind := .typeDef .classType { text := "Functions" } [] [], parent := some ⟨1⟩ },
    { kind := .package { text := "b" } [⟨5⟩], parent := some ⟨0⟩ },
    { kind := .callable .free { text := "main" } none [] none, parent := some ⟨4⟩ },
    { kind := .package { text := "a" } [⟨7⟩, ⟨8⟩], parent := some ⟨0⟩ },
    { kind := .primitive { text := "int" }, parent := some ⟨6⟩ },
    { kind := .callable .free { text := "g" } none [] none, parent := some ⟨6⟩ }]
  root := ⟨0⟩
  wellFormed := wellFormed_of_ofParts (by decide)

/-- Its files. -/
def splitPackageFiles : List (Path × String) :=
  [(⟨"a/Functions.java"⟩, "package a;\n\npublic class Functions \x7b\n" ++
      "    public static f();\n    public static g();\n\x7d"),
    (⟨"b/Functions.java"⟩, "package b;\n\npublic class Functions \x7b\n" ++
      "    public static main();\n    public static void main(String[] args) \x7b\n" ++
      "        main();\n    \x7d\n\x7d")]

/-- The functions of the two parts share a file, which replaces that of the class. -/
theorem filledWith_splitPackage :
    ∃ files, splitPackage.project {} = .ok files ∧
      files.entries = splitPackageFiles ∧
      ∃ packages typeFiles holderFiles,
        FirstOccurrences ((splitPackage.walk.filter splitPackage.isFunction).map
          ((Options.namer {}).package splitPackage)) packages ∧
        List.Forall₂ (splitPackage.IsTypeFile {}) (splitPackage.walk.filter splitPackage.isType)
          typeFiles ∧
        List.Forall₂
          (splitPackage.IsHolderFile {} (splitPackage.walk.filter splitPackage.isFunction))
          packages holderFiles ∧
        FilledWith files (typeFiles ++ holderFiles) := by
  have hentries : (splitPackage.project {}).toOption.map Table.entries = some splitPackageFiles := by
    decide +kernel
  obtain ⟨files, hfiles, hentries⟩ := Option.map_eq_some_iff.1 hentries
  have hproject := eq_ok_of_toOption hfiles
  exact ⟨files, hproject, hentries, (filledWith_of_project splitPackage {} files hproject).2.2⟩

end Tree

end Emitter
