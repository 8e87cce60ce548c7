import Mathlib.Data.List.Dedup
import Emitter.Proofs.Project.TypeFile

/-!
# Files that are kept apart

A file is placed by the name of its package and a stem.  Where both are made of identifiers
the path tells them apart: its components are the parts of the package and then one that has
a dot, which no part has (`components_filePath_of_isPackageName`).  So a path that starts
with the components of another is that other path, with the same package and the same stem
(`eq_of_filePath_prefix`).

For the files of a tree this leaves two ways in which one file can take the place of
another, and `Tree.Overwritten` lists them: two types with one package and one name, and a
type with the name of the holder in a package that has functions.  A `Tree.Source` is what a
file is rendered from, and its `Tree.site` is the package and the stem.  Every site has a file
in the table (`exists_entry_of_source`), that of a holder for the holders
(`exists_holder_entry`).  Their number is that of the sources exactly when nothing is
overwritten (`size_eq_length_sources_iff`), and none of them stands where another one needs a
directory (`not_prefix_directory`).
-/

namespace Emitter

/-! ## Packages and stems -/

/-- A package name that is absent, or identifiers with dots between them. -/
def IsPackageName : Option String → Prop
  | none => True
  | some package => ∃ parts, parts ≠ [] ∧ (∀ part ∈ parts, isIdentifier part = true) ∧
      package = ".".intercalate parts

theorem isPackageName_some_iff {package : String} :
    IsPackageName (some package) ↔ ∀ part ∈ splitText '.' package, isIdentifier part = true := by
  constructor
  · rintro ⟨parts, hne, hparts, rfl⟩
    have hdots : ∀ part ∈ parts, '.' ∉ part.toList :=
      fun part hpart => dot_notMem_of_isIdentifier (hparts part hpart)
    rw [splitText_intercalate rfl hne, flatMap_splitText hdots]
    exact hparts
  · intro h
    exact ⟨splitText '.' package, splitText_ne_nil _ _, h, (intercalate_splitText_dot package).symm⟩

/-- A stem with an extension is one entry of a directory. -/
theorem isPlain_fileName {stem extension : String} (hstem : isIdentifier stem = true)
    (hextension : isIdentifier extension = true) : Path.IsPlain (stem ++ "." ++ extension) := by
  have hlead : (⟨stem ++ "." ++ extension⟩ : Path).lead = [] := by
    rw [String.append_assoc]
    exact Path.lead_of_isIdentifier hstem _
  have hslash : '/' ∉ (stem ++ "." ++ extension).toList := by
    simp [slash_notMem_of_isIdentifier hstem, slash_notMem_of_isIdentifier hextension]
  -- The first character is that of an identifier, so the text is none of the special segments.
  obtain ⟨first, rest, hchars⟩ := List.exists_cons_of_ne_nil (toList_ne_nil_of_isIdentifier hstem)
  have hfirst : first ≠ '.' := by
    intro hdot
    exact dot_notMem_of_isIdentifier hstem (by rw [hchars, hdot]; exact List.mem_cons_self)
  have hne : ∀ segment : String, segment.toList.head? = none ∨ segment.toList.head? = some '.' →
      stem ++ "." ++ extension ≠ segment := by
    rintro segment hhead rfl
    simp [hchars, hfirst] at hhead
  have hstep := Component.ofSegment?_of_ne (hne "" (by decide)) (hne "." (by decide))
    (hne ".." (by decide))
  rw [Path.IsPlain, Path.components_eq, hlead, Path.steps, splitText_eq_singleton hslash]
  simp [hstep]

/-- A name with a dot in it is no part of a package. -/
theorem name_notMem_packageSteps {package : Option String} {name : String}
    (hpackage : IsPackageName package) (hdot : '.' ∈ name.toList) :
    .name name ∉ packageSteps package := by
  cases package with
  | none => simp [packageSteps]
  | some package =>
    intro hmem
    obtain ⟨part, hpart, he⟩ := List.mem_map.1 hmem
    cases he
    exact dot_notMem_of_isIdentifier (isPackageName_some_iff.1 hpackage name hpart) hdot

section

variable {o : Options} (hextension : isIdentifier o.target.extension = true)
  {package other : Option String} {stem name : String}

include hextension

theorem components_filePath_of_isPackageName (hpackage : IsPackageName package)
    (hstem : isIdentifier stem = true) :
    (o.filePath package stem).components =
      packageSteps package ++ [.name (stem ++ "." ++ o.target.extension)] := by
  rw [Tree.components_filePath_of_isPlain (isPlain_fileName hstem hextension)]
  cases package with
  | none => rfl
  | some package =>
    show (Path.ofDotted package).components ++ _ = (splitText '.' package).map Component.name ++ _
    rw [Path.components_ofDotted (isPackageName_some_iff.1 hpackage)]

/-- A path that starts with the components of another one is of the same package and stem. -/
theorem eq_of_filePath_prefix (hpackage : IsPackageName package) (hother : IsPackageName other)
    (hstem : isIdentifier stem = true) (hname : isIdentifier name = true)
    (h : (o.filePath package stem).components <+: (o.filePath other name).components) :
    package = other ∧ stem = name := by
  rw [components_filePath_of_isPackageName hextension hpackage hstem,
    components_filePath_of_isPackageName hextension hother hname, List.prefix_concat_iff] at h
  rcases h with hsame | hinner
  · obtain ⟨hsteps, hlast⟩ := List.append_inj' hsame rfl
    have hfile := Component.name.inj (List.cons.inj hlast).1
    exact ⟨packageSteps_injective hsteps, by simpa only [String.append_left_inj] using hfile⟩
  · -- The file name would be a part of the other package.
    have hmem := hinner.subset (List.mem_append_right _ List.mem_cons_self)
    exact absurd hmem (name_notMem_packageSteps hother (by simp))

end

/-! ## Tables of files -/

/-- As many files as were put into a table are in it exactly when no two had the same
components. -/
theorem FilledWith.size_eq_iff {files : Files} {inserted : List (Path × String)}
    (h : FilledWith files inserted) :
    files.size = inserted.length ↔ (inserted.map fun file => file.1.components).Nodup := by
  have hmem : ∀ components, components ∈ files.keys.map Path.components ↔
      components ∈ (inserted.map fun file => file.1.components).dedup := by
    intro components
    rw [List.mem_dedup, List.mem_map, List.mem_map]
    constructor
    · rintro ⟨path, hpath, rfl⟩
      obtain ⟨before, first, after, rfl, rfl, _⟩ := h.spelled path hpath
      exact ⟨first, by simp, rfl⟩
    · rintro ⟨file, hfile, rfl⟩
      obtain ⟨path, hpath, hsame⟩ := h.covered file hfile
      exact ⟨path, hpath, hsame.symm⟩
  have hperm := (List.perm_ext_iff_of_nodup h.distinct (List.nodup_dedup _)).2 hmem
  have hsize : files.size = (inserted.map fun file => file.1.components).dedup.length := by
    rw [← hperm.length_eq, Table.size, Table.keys, List.length_map, List.length_map]
  rw [hsize, ← List.dedup_eq_self]
  constructor
  · intro hlength
    exact (List.dedup_sublist _).eq_of_length (by rw [hlength, List.length_map])
  · intro hself
    rw [hself, List.length_map]

/-- Where paths with the same components are the same, the entries of a table are among the files
that were put into it. -/
theorem FilledWith.mem_inserted {files : Files} {inserted : List (Path × String)}
    (h : FilledWith files inserted)
    (hspelling : ∀ first ∈ inserted, ∀ second ∈ inserted,
      first.1.components = second.1.components → first.1 = second.1)
    {entry : Path × String} (hentry : entry ∈ files.entries) : entry ∈ inserted := by
  obtain ⟨before, first, after, hfirst, hpath, _⟩ := h.spelled entry.1 (List.mem_map_of_mem hentry)
  obtain ⟨_, last, _, hlast, hsame, htext, _⟩ := h.text entry hentry
  have hlast : last ∈ inserted := by simp [hlast]
  have hfirst : first ∈ inserted := by simp [hfirst]
  have hkey : entry.1 = last.1 := by
    rw [← hpath]
    exact hspelling first hfirst last hlast (by rw [hpath, hsame])
  have he : entry = last := Prod.ext hkey htext.symm
  rw [he]
  exact hlast

/-! ## Files of a tree -/

namespace Tree

variable {t : Tree} {o : Options} {files : Files}

/-- The names that files and their packages are called by are made of identifiers. -/
structure PlainFiles (t : Tree) (o : Options) : Prop extends t.PlainNames o where
  type : ∀ id form name parameters definitions,
    t.kind? id = some (.typeDef form name parameters definitions) → isIdentifier name.text = true

/-- The name of a class or an interface. -/
def typeName? (t : Tree) (id : NodeId) : Option String :=
  match t.kind? id with
  | some (.typeDef _ name _ _) => some name.text
  | _ => none

/-- The file of a type shares its path with another file. -/
inductive Overwritten (t : Tree) (o : Options) (id : NodeId) : Prop where
  /-- Another type has the same package and the same name. -/
  | byType (other : NodeId) (hwalk : other ∈ t.walk) (htype : t.isType other = true)
      (hne : other ≠ id) (hpackage : o.namer.package t other = o.namer.package t id)
      (hname : t.typeName? other = t.typeName? id)
  /-- The type is named like the holder of its package. -/
  | byHolder (function : NodeId) (hwalk : function ∈ t.walk)
      (hfunction : t.isFunction function = true)
      (hpackage : o.namer.package t function = o.namer.package t id)
      (hname : t.typeName? id = some o.holderType)

/-- What a file was rendered from. -/
inductive Source where
  | type (id : NodeId)
  | holder (package : Option String)

/-- The package and the stem that place a file. -/
def site (t : Tree) (o : Options) : Source → Option String × Option String
  | .type id => (o.namer.package t id, t.typeName? id)
  | .holder package => (package, some o.holderType)

/-- Everything that a file is rendered from: the types of the walk, and the packages of its
functions. -/
def sources (t : Tree) (o : Options) : List Source :=
  (t.walk.filter t.isType).map .type ++
    ((t.walk.filter t.isFunction).map (o.namer.package t)).eraseDups.map .holder

/-- A file is the one of a source. -/
def IsFileOf (t : Tree) (o : Options) : Source → Path × String → Prop
  | .type id => t.IsTypeFile o id
  | .holder package => t.IsHolderFile o (t.walk.filter t.isFunction) package

/-! ### Sources -/

theorem mem_sources_type {id : NodeId} :
    Source.type id ∈ t.sources o ↔ id ∈ t.walk ∧ t.isType id = true := by
  simp [sources]

theorem mem_sources_holder {package : Option String} :
    Source.holder package ∈ t.sources o ↔
      ∃ function ∈ t.walk, t.isFunction function = true ∧ o.namer.package t function = package := by
  simp [sources, and_assoc]

theorem nodup_sources (t : Tree) (o : Options) : (t.sources o).Nodup := by
  refine List.nodup_append.2 ⟨?_, ?_, ?_⟩
  · exact (t.nodup_walk.filter _).map fun _ _ he => Source.type.inj he
  · exact (firstOccurrences_eraseDups _).nodup.map fun _ _ he => Source.holder.inj he
  · intro first hfirst second hsecond he
    obtain ⟨_, _, rfl⟩ := List.mem_map.1 hfirst
    obtain ⟨_, _, rfl⟩ := List.mem_map.1 hsecond
    cases he

/-- A type is overwritten exactly when another source has its site. -/
theorem overwritten_iff {id : NodeId} :
    t.Overwritten o id ↔
      ∃ source ∈ t.sources o, source ≠ .type id ∧ t.site o source = t.site o (.type id) := by
  constructor
  · intro h
    cases h with
    | byType other hwalk htype hne hpackage hname =>
      exact ⟨.type other, mem_sources_type.2 ⟨hwalk, htype⟩, fun he => hne (Source.type.inj he),
        Prod.ext hpackage hname⟩
    | byHolder function hwalk hfunction hpackage hname =>
      exact ⟨.holder _, mem_sources_holder.2 ⟨function, hwalk, hfunction, rfl⟩,
        fun he => (nomatch he), Prod.ext hpackage hname.symm⟩
  · rintro ⟨source, hsource, hne, hsite⟩
    obtain ⟨hpackage, hname⟩ := Prod.ext_iff.1 hsite
    cases source with
    | type other =>
      obtain ⟨hwalk, htype⟩ := mem_sources_type.1 hsource
      exact .byType other hwalk htype (fun he => hne (congrArg _ he)) hpackage hname
    | holder package =>
      obtain ⟨function, hwalk, hfunction, rfl⟩ := mem_sources_holder.1 hsource
      exact .byHolder function hwalk hfunction hpackage hname.symm

/-- Holders of different packages have different sites. -/
theorem eq_of_site_holder {package other : Option String}
    (h : t.site o (.holder package) = t.site o (.holder other)) : package = other :=
  (Prod.ext_iff.1 h).1

theorem exists_name_of_isType {id : NodeId} (h : t.isType id = true) :
    ∃ form name parameters definitions,
      t.kind? id = some (.typeDef form name parameters definitions) ∧
      t.typeName? id = some name.text := by
  obtain ⟨kind, hk, hdef⟩ := (Option.any_eq_true _ _).1 h
  cases kind with
  | typeDef form name parameters definitions =>
    exact ⟨form, name, parameters, definitions, hk, by rw [typeName?, hk]⟩
  | _ => cases hdef

/-- A file is where its source places it. -/
theorem IsFileOf.exists_path {source : Source} {file : Path × String}
    (h : t.IsFileOf o source file) :
    ∃ stem, (t.site o source).2 = some stem ∧ file.1 = o.filePath (t.site o source).1 stem := by
  cases source with
  | type id =>
    obtain ⟨_, name, _, _, _, hk, _, rfl⟩ := h
    exact ⟨name.text, by rw [site, typeName?, hk], rfl⟩
  | holder package =>
    obtain ⟨_, _, _, _, _, _, rfl⟩ := h
    exact ⟨o.holderType, rfl, rfl⟩

/-- The components that a source gives its file. -/
def place (t : Tree) (o : Options) (source : Source) : List Component :=
  (o.filePath (t.site o source).1 ((t.site o source).2.getD "")).components

theorem IsFileOf.place_eq {source : Source} {file : Path × String}
    (h : t.IsFileOf o source file) : t.place o source = file.1.components := by
  obtain ⟨stem, hstem, hpath⟩ := h.exists_path
  rw [place, hstem, Option.getD_some, hpath]

theorem components_eq_map_place {sources : List Source} {inserted : List (Path × String)}
    (h : List.Forall₂ (t.IsFileOf o) sources inserted) :
    (inserted.map fun file => file.1.components) = sources.map (t.place o) := by
  have hplaces : List.Forall₂ (· = ·) (sources.map (t.place o))
      (inserted.map fun file => file.1.components) := by
    rw [List.forall₂_map_left_iff, List.forall₂_map_right_iff]
    exact h.imp fun _ _ hown => IsFileOf.place_eq hown
  rw [List.forall₂_eq_eq_eq] at hplaces
  exact hplaces.symm

theorem IsFileOf.path_eq_of_site {first second : Source} {file other : Path × String}
    (hfile : t.IsFileOf o first file) (hother : t.IsFileOf o second other)
    (h : t.site o first = t.site o second) : file.1 = other.1 := by
  obtain ⟨stem, hstem, hpath⟩ := hfile.exists_path
  obtain ⟨stem', hstem', hpath'⟩ := hother.exists_path
  rw [h, hstem'] at hstem
  cases hstem
  rw [hpath, hpath', h]

section

variable (hextension : isIdentifier o.target.extension = true) (hnames : t.PlainFiles o)

include hnames

theorem PlainFiles.isPackageName (id : NodeId) : IsPackageName (o.namer.package t id) := by
  cases hpackage : o.namer.package t id with
  | none => trivial
  | some package =>
    exact isPackageName_some_iff.2 fun _ hpart => hnames.isIdentifier_part hpackage hpart

theorem PlainFiles.site {source : Source} (h : source ∈ t.sources o) :
    IsPackageName (t.site o source).1 ∧
      ∀ stem, (t.site o source).2 = some stem → isIdentifier stem = true := by
  cases source with
  | type id =>
    obtain ⟨_, name, _, _, hk, hname⟩ := exists_name_of_isType (mem_sources_type.1 h).2
    refine ⟨hnames.isPackageName id, fun stem hstem => ?_⟩
    cases hname.symm.trans hstem
    exact hnames.type _ _ _ _ _ hk
  | holder package =>
    obtain ⟨function, _, _, rfl⟩ := mem_sources_holder.1 h
    refine ⟨hnames.isPackageName function, fun stem hstem => ?_⟩
    cases hstem
    exact hnames.holder

include hextension

theorem components_ne_nil {source : Source} (hsource : source ∈ t.sources o)
    {file : Path × String} (hfile : t.IsFileOf o source file) : file.1.components ≠ [] := by
  obtain ⟨stem, hstem, hpath⟩ := hfile.exists_path
  obtain ⟨hpackage, hidentifier⟩ := hnames.site hsource
  rw [hpath, components_filePath_of_isPackageName hextension hpackage (hidentifier stem hstem)]
  simp

/-- Where the path of one file starts with that of another, the two have one site. -/
theorem site_eq_of_prefix {first second : Source} (hfirst : first ∈ t.sources o)
    (hsecond : second ∈ t.sources o) {file other : Path × String}
    (hfile : t.IsFileOf o first file) (hother : t.IsFileOf o second other)
    (h : file.1.components <+: other.1.components) : t.site o first = t.site o second := by
  obtain ⟨stem, hstem, hpath⟩ := hfile.exists_path
  obtain ⟨stem', hstem', hpath'⟩ := hother.exists_path
  rw [hpath, hpath'] at h
  obtain ⟨hpackage, hidentifier⟩ := hnames.site hfirst
  obtain ⟨hpackage', hidentifier'⟩ := hnames.site hsecond
  obtain ⟨hsame, hsame'⟩ := eq_of_filePath_prefix hextension hpackage hpackage'
    (hidentifier stem hstem) (hidentifier' stem' hstem') h
  exact Prod.ext hsame (by rw [hstem, hstem', hsame'])

/-! ### Rendered files -/

variable {inserted : List (Path × String)}
  (hinserted : List.Forall₂ (t.IsFileOf o) (t.sources o) inserted)

include hinserted

theorem path_eq_of_prefix {file other : Path × String} (hfile : file ∈ inserted)
    (hother : other ∈ inserted) (h : file.1.components <+: other.1.components) :
    file.1 = other.1 := by
  obtain ⟨first, hfirst, hfile⟩ := exists_partner hinserted.flip hfile
  obtain ⟨second, hsecond, hother⟩ := exists_partner hinserted.flip hother
  have hsite := site_eq_of_prefix hextension hnames hfirst hsecond hfile hother h
  exact IsFileOf.path_eq_of_site hfile hother hsite

/-- The entries of the table are rendered files. -/
theorem mem_inserted_of_mem_entries (hfilled : FilledWith files inserted)
    {entry : Path × String} (h : entry ∈ files.entries) : entry ∈ inserted :=
  hfilled.mem_inserted (fun _ hfirst _ hsecond hsame =>
    path_eq_of_prefix hextension hnames hinserted hfirst hsecond (hsame ▸ List.prefix_rfl)) h

/-- The site of every source has a file in the table. -/
theorem exists_entry_of_source (hfilled : FilledWith files inserted) {source : Source}
    (hsource : source ∈ t.sources o) :
    ∃ other ∈ t.sources o, t.site o other = t.site o source ∧
      ∃ entry ∈ files.entries, t.IsFileOf o other entry := by
  obtain ⟨file, hfile, hown⟩ := exists_partner hinserted hsource
  obtain ⟨path, hpath, hsame⟩ := hfilled.covered file hfile
  obtain ⟨entry, hentry, rfl⟩ := List.mem_map.1 hpath
  have hmem := mem_inserted_of_mem_entries hextension hnames hinserted hfilled hentry
  obtain ⟨other, hother, hentryOwn⟩ := exists_partner hinserted.flip hmem
  have hinside : entry.1.components <+: file.1.components := hsame ▸ List.prefix_rfl
  exact ⟨other, hother,
    site_eq_of_prefix hextension hnames hother hsource hentryOwn hown hinside, entry, hentry,
    hentryOwn⟩

/-- All rendered files are in the table exactly when no type is overwritten. -/
theorem size_eq_length_sources_iff (hfilled : FilledWith files inserted) :
    files.size = (t.sources o).length ↔
      ∀ id ∈ t.walk, t.isType id = true → ¬ t.Overwritten o id := by
  rw [hinserted.length_eq, hfilled.size_eq_iff, components_eq_map_place hinserted,
    List.nodup_map_iff_inj_on (t.nodup_sources o)]
  constructor
  · intro hinjective id hid htype hoverwritten
    obtain ⟨source, hsource, hne, hsite⟩ := overwritten_iff.1 hoverwritten
    have hplace : t.place o source = t.place o (.type id) := by rw [place, hsite, place]
    exact hne (hinjective source hsource _ (mem_sources_type.2 ⟨hid, htype⟩) hplace)
  · intro hnone first hfirst second hsecond hplace
    obtain ⟨file, _, hfile⟩ := exists_partner hinserted hfirst
    obtain ⟨other, _, hother⟩ := exists_partner hinserted hsecond
    have hsite : t.site o first = t.site o second := by
      refine site_eq_of_prefix hextension hnames hfirst hsecond hfile hother ?_
      rw [← IsFileOf.place_eq hfile, hplace, IsFileOf.place_eq hother]
    by_contra hne
    cases first with
    | type id =>
      obtain ⟨hid, htype⟩ := mem_sources_type.1 hfirst
      exact hnone id hid htype (overwritten_iff.2 ⟨second, hsecond, Ne.symm hne, hsite.symm⟩)
    | holder package =>
      cases second with
      | type id =>
        obtain ⟨hid, htype⟩ := mem_sources_type.1 hsecond
        exact hnone id hid htype (overwritten_iff.2 ⟨_, hfirst, hne, hsite⟩)
      | holder other => exact hne (congrArg _ (eq_of_site_holder hsite))

/-- No file is where another one needs a directory. -/
theorem not_prefix_directory (hfilled : FilledWith files inserted) {path other : Path}
    (hpath : path ∈ files.keys) (hother : other ∈ files.keys) :
    ¬ path.components <+: other.directory := by
  obtain ⟨entry, hentry, rfl⟩ := List.mem_map.1 hpath
  obtain ⟨entry', hentry', rfl⟩ := List.mem_map.1 hother
  have hmem := mem_inserted_of_mem_entries hextension hnames hinserted hfilled hentry
  have hmem' := mem_inserted_of_mem_entries hextension hnames hinserted hfilled hentry'
  intro hinside
  have hsame := path_eq_of_prefix hextension hnames hinserted hmem hmem'
    (hinside.trans (List.dropLast_prefix _))
  -- A path is longer than the way to its directory.
  obtain ⟨source, hsource, hown⟩ := exists_partner hinserted.flip hmem'
  have hpositive := List.length_pos_of_ne_nil (components_ne_nil hextension hnames hsource hown)
  have hlength := hinside.length_le
  rw [hsame, Path.directory, List.length_dropLast] at hlength
  omega

end

section

variable (hextension : isIdentifier o.target.extension = true) (hnames : t.PlainFiles o)
  {typeFiles holderFiles : List (Path × String)}
  (htypes : List.Forall₂ (t.IsTypeFile o) (t.walk.filter t.isType) typeFiles)
  (hholders : List.Forall₂ (t.IsHolderFile o (t.walk.filter t.isFunction))
    ((t.walk.filter t.isFunction).map (o.namer.package t)).eraseDups holderFiles)

include htypes hholders

theorem forall₂_isFileOf :
    List.Forall₂ (t.IsFileOf o) (t.sources o) (typeFiles ++ holderFiles) := by
  refine List.rel_append ?_ ?_
  · rw [List.forall₂_map_left_iff]
    exact htypes
  · rw [List.forall₂_map_left_iff]
    exact hholders

include hextension hnames

/-- The holder of a package is in the table: it comes after all files of types, and no other
package has its path. -/
theorem exists_holder_entry (hfilled : FilledWith files (typeFiles ++ holderFiles))
    {function : NodeId} (hwalk : function ∈ t.walk) (hfunction : t.isFunction function = true) :
    ∃ entry ∈ files.entries,
      t.IsHolderFile o (t.walk.filter t.isFunction) (o.namer.package t function) entry := by
  have hinserted := forall₂_isFileOf htypes hholders
  have hpackage : o.namer.package t function ∈
      ((t.walk.filter t.isFunction).map (o.namer.package t)).eraseDups :=
    List.mem_eraseDups.2 (List.mem_map_of_mem (List.mem_filter.2 ⟨hwalk, hfunction⟩))
  obtain ⟨file, hfile, hown⟩ := exists_partner hholders hpackage
  obtain ⟨entry, hentry, hplace, last, hlast, hsame, htext⟩ := hfilled.exists_of_mem_right hfile
  obtain ⟨other, hother, hlastOwn⟩ := exists_partner hholders.flip hlast
  have hmem := mem_inserted_of_mem_entries hextension hnames hinserted hfilled hentry
  have hkey : entry.1 = last.1 := path_eq_of_prefix hextension hnames hinserted hmem
    (List.mem_append_right _ hlast) (by rw [hplace, hsame])
  have hholder : ∀ {package}, package ∈
      ((t.walk.filter t.isFunction).map (o.namer.package t)).eraseDups →
      Source.holder package ∈ t.sources o :=
    fun hmem => List.mem_append_right _ (List.mem_map_of_mem hmem)
  have hsite : t.site o (.holder other) = t.site o (.holder (o.namer.package t function)) :=
    site_eq_of_prefix hextension hnames (hholder hother) (hholder hpackage) hlastOwn hown
      (by rw [hsame])
  refine ⟨entry, hentry, ?_⟩
  have he : entry = last := Prod.ext hkey htext.symm
  rw [he, ← eq_of_site_holder hsite]
  exact hlastOwn

end

/-- With identifiers for names, paths tell packages and stems apart, and none leads through
another.  So a tree loses no file but that of a type which is overwritten, and no file of it
stands where another one needs a directory. -/
theorem files_kept_apart (o : Options) (hextension : isIdentifier o.target.extension = true) :
    (∀ package other stem name, IsPackageName package → IsPackageName other →
      isIdentifier stem = true → isIdentifier name = true →
      ((o.filePath package stem).components = (o.filePath other name).components ↔
        package = other ∧ stem = name) ∧
      ¬ ((o.filePath package stem).components <+: (o.filePath other name).components ∧
        (o.filePath package stem).components ≠ (o.filePath other name).components)) ∧
    ∀ (t : Tree) (files : Files), t.PlainFiles o → t.project o = .ok files →
      (∀ function ∈ t.walk, t.isFunction function = true → ∃ file ∈ files.entries,
        t.IsHolderFile o (t.walk.filter t.isFunction) (o.namer.package t function) file) ∧
      (∀ id ∈ t.walk, t.isType id = true → ¬ t.Overwritten o id →
        ∃ file ∈ files.entries, t.IsTypeFile o id file) ∧
      (files.size = (t.sources o).length ↔
        ∀ id ∈ t.walk, t.isType id = true → ¬ t.Overwritten o id) ∧
      ∀ path ∈ files.keys, ∀ other ∈ files.keys, ¬ path.components <+: other.directory := by
  refine ⟨fun package other stem name hpackage hother hstem hname => ?_, fun t files hnames h => ?_⟩
  · have hinside : (o.filePath package stem).components <+: (o.filePath other name).components →
        package = other ∧ stem = name :=
      eq_of_filePath_prefix hextension hpackage hother hstem hname
    refine ⟨⟨fun hsame => hinside (hsame ▸ List.prefix_rfl), ?_⟩, fun ⟨hproper, hne⟩ => ?_⟩
    · rintro ⟨rfl, rfl⟩
      rfl
    · obtain ⟨rfl, rfl⟩ := hinside hproper
      exact hne rfl
  · obtain ⟨typeFiles, holderFiles, htypes, hholders, rfl⟩ := exists_rendered_of_project h
    have hinserted := forall₂_isFileOf htypes hholders
    have hfilled := filledWith_ofList (typeFiles ++ holderFiles)
    refine ⟨fun function hwalk hfunction => ?_, fun id hid htype hkept => ?_, ?_, ?_⟩
    · exact exists_holder_entry hextension hnames htypes hholders hfilled hwalk hfunction
    · have hsource : Source.type id ∈ t.sources o := mem_sources_type.2 ⟨hid, htype⟩
      obtain ⟨other, hother, hsite, entry, hentry, hown⟩ :=
        exists_entry_of_source hextension hnames hinserted hfilled hsource
      have hself : other = .type id := by
        by_contra hne
        exact hkept (overwritten_iff.2 ⟨other, hother, hne, hsite⟩)
      subst hself
      exact ⟨entry, hentry, hown⟩
    · exact size_eq_length_sources_iff hextension hnames hinserted hfilled
    · intro path hpath other hother
      exact not_prefix_directory hextension hnames hinserted hfilled hpath hother

theorem plainFiles_splitPackage : splitPackage.PlainFiles {} := by
  have hids : ∀ id ∈ splitPackage.ids, ∀ name ∈ (splitPackage.kind? id).bind Kind.name?,
      isIdentifier name.text = true := by decide +kernel
  refine { package := fun id name definitions hk => ?_, replacement := by decide +kernel
           holder := by decide +kernel, type := fun id form name parameters definitions hk => ?_ }
  · exact hids id (mem_ids (index_lt_of_kind? hk)) name (by rw [hk]; rfl)
  · exact hids id (mem_ids (index_lt_of_kind? hk)) name (by rw [hk]; rfl)

/-- A class with the name of the holder loses its file to the functions of its package. -/
theorem files_kept_apart_splitPackage :
    isIdentifier "java" = true ∧ splitPackage.PlainFiles {} ∧
    ∃ files, splitPackage.project {} = .ok files ∧
      (∃ file ∈ files.entries, splitPackage.IsHolderFile {}
        (splitPackage.walk.filter splitPackage.isFunction) (some "a") file) ∧
      ¬ files.size = (splitPackage.sources {}).length ∧
      ∃ id ∈ splitPackage.walk, splitPackage.Overwritten {} id := by
  have hextension : isIdentifier "java" = true := by decide +kernel
  have hkeys : (splitPackage.project {}).toOption.map Table.size = some 2 := by decide +kernel
  obtain ⟨files, hfiles, hsize⟩ := Option.map_eq_some_iff.1 hkeys
  have hproject := eq_ok_of_toOption hfiles
  have hsources : (splitPackage.sources {}).length = 3 := by decide +kernel
  have hpackage : (Options.namer {}).package splitPackage ⟨2⟩ = some "a" := by decide +kernel
  obtain ⟨hholder, _, hcount, _⟩ := (files_kept_apart {} hextension).2 splitPackage files
    plainFiles_splitPackage hproject
  have hlost : ¬ files.size = (splitPackage.sources {}).length := by
    rw [hsize, hsources]
    decide
  refine ⟨hextension, plainFiles_splitPackage, files, hproject, ?_, hlost, ?_⟩
  · rw [← hpackage]
    exact hholder ⟨2⟩ (by decide +kernel) rfl
  · by_contra hnone
    exact hlost (hcount.2 fun id hid _ hoverwritten => hnone ⟨id, hid, hoverwritten⟩)

end Tree

end Emitter
