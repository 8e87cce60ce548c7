import Mathlib.Logic.Function.Basic
import Emitter.Proofs.Outcome
import Emitter.Proofs.Path
import Emitter.Proofs.Table
import Emitter.Storage.Disk

/-!
# Writing on a disk

What writing does to a disk, read as a map from locations to texts.

* `Disk.Grows`: no entry goes away, and none changes between file and directory.  So a
  way that leads to a directory leads there ever after (`follow_of_grows`).
* `Disk.Widens`: directories were added and no text has changed.  This is all that making
  directories does, also where it fails (`widens_makeDirectories`).
* `save_spec`: a text that is saved is at its place, the directory of the place is there
  and no other text has changed.
* `save_error`: what cannot be saved changes no text, and the failure is about the directory
  or, once this is there, about the file.
* `read_of_save`: what was saved is read back, and `exists_save_of_writable`: where one
  text can be saved any other can.
* `writeFiles_spec` is the same for a list of files, by induction over the list.
* `writeFiles_again`: once a list of files is written, writing it again finds all
  directories there and ends on the same disk, although a place that is named twice has
  another text in between.
-/

namespace Emitter

namespace Disk

variable {d d' e : Disk} {location place : Location}

/-! ## Entries and texts -/

theorem entry?_name (d : Disk) (location : Location) (name : String) :
    d.entry? (location ++ [name]) = d.entries.find? (location ++ [name]) := by
  unfold entry?
  simp

theorem find?_put (d : Disk) (place other : Location) (entry : Entry) :
    (d.put place entry).entries.find? other =
      if other = place then some entry else d.entries.find? other := by
  rw [put, Table.find?_insert]
  simp only [Std.LawfulEqOrd.compare_eq_iff_eq]

/-- What the file at each location holds, where there is one. -/
def contents (d : Disk) (location : Location) : Option (Option String) :=
  match d.entries.find? location with
  | some (.file content) => some content
  | _ => none

theorem contents_eq_some_iff {content : Option String} :
    d.contents location = some content ↔ d.entries.find? location = some (.file content) := by
  unfold contents
  split
  · next h => simp [h]
  · next h =>
    refine ⟨nofun, fun hfile => ?_⟩
    exact absurd hfile (h content)

theorem contents_put_file (d : Disk) (place : Location) (content : Option String) :
    (d.put place (.file content)).contents = Function.update d.contents place (some content) := by
  funext other
  by_cases h : other = place
  · rw [h, Function.update_self, contents_eq_some_iff, find?_put, if_pos rfl]
  · rw [Function.update_of_ne h, contents, contents, find?_put, if_neg h]

theorem contents_put_directory (h : d.entries.find? place = none) :
    (d.put place .directory).contents = d.contents := by
  funext other
  by_cases he : other = place
  · simp [contents, find?_put, he, h]
  · simp [contents, find?_put, he]

/-! ## Growth -/

/-- Directories stay directories, and files stay files. -/
structure Grows (d d' : Disk) : Prop where
  workingDirectory : d'.workingDirectory = d.workingDirectory
  directory : ∀ location, d.entries.find? location = some .directory →
    d'.entries.find? location = some .directory
  file : ∀ location, d.contents location ≠ none → d'.contents location ≠ none

namespace Grows

theorem refl (d : Disk) : d.Grows d := ⟨rfl, fun _ h => h, fun _ h => h⟩

theorem trans (h : d.Grows d') (h' : d'.Grows e) : d.Grows e where
  workingDirectory := h'.workingDirectory.trans h.workingDirectory
  directory := fun location hd => h'.directory location (h.directory location hd)
  file := fun location hf => h'.file location (h.file location hf)

theorem put_directory (h : d.entries.find? place = none) : d.Grows (d.put place .directory) where
  workingDirectory := rfl
  directory := fun other hother => by
    rw [find?_put]
    split
    · rfl
    · exact hother
  file := fun other hother => by rwa [contents_put_directory h]

theorem put_file {content : Option String} (h : d.entries.find? place ≠ some .directory) :
    d.Grows (d.put place (.file content)) where
  workingDirectory := rfl
  directory := fun other hother => by
    have hne : other ≠ place := fun he => h (he ▸ hother)
    rwa [find?_put, if_neg hne]
  file := fun other hother => by
    rw [contents_put_file]
    by_cases he : other = place
    · simp [he]
    · rwa [Function.update_of_ne he]

end Grows

/-- Directories were added, and no text has changed. -/
structure Widens (d d' : Disk) : Prop where
  grows : d.Grows d'
  contents : d'.contents = d.contents

namespace Widens

theorem refl (d : Disk) : d.Widens d := ⟨.refl d, rfl⟩

theorem trans (h : d.Widens d') (h' : d'.Widens e) : d.Widens e :=
  ⟨h.grows.trans h'.grows, h'.contents.trans h.contents⟩

theorem put_directory (h : d.entries.find? place = none) : d.Widens (d.put place .directory) :=
  ⟨.put_directory h, contents_put_directory h⟩

end Widens

/-! ## Ways -/

theorem enter_eq_ok_iff {name : String} {target : Location} :
    d.enter location name = .ok target ↔
      target = location ++ [name] ∧ d.entries.find? (location ++ [name]) = some .directory := by
  unfold enter
  rw [entry?_name]
  split
  · next h => simp [h, eq_comm]
  · next h => simp [h]
  · next h => simp [h]

theorem enter_eq_missing_iff {name : String} :
    d.enter location name = .error .missing ↔ d.entries.find? (location ++ [name]) = none := by
  unfold enter
  rw [entry?_name]
  split <;> simp [*]

/-- A way that leads to a directory still leads there when the disk has grown. -/
theorem follow_of_grows (hgrows : d.Grows d') {steps : List Component} {target : Location}
    (h : d.follow location steps = .ok target) : d'.follow location steps = .ok target := by
  induction steps generalizing location with
  | nil => exact h
  | cons step rest ih =>
    cases step with
    | root | current | parent => exact ih h
    | name name =>
      rw [follow] at h ⊢
      split at h
      · cases h
      · split at h
        · cases h
        · next inner henter =>
          obtain ⟨rfl, hdirectory⟩ := enter_eq_ok_iff.1 henter
          rw [enter_eq_ok_iff.2 ⟨rfl, hgrows.directory _ hdirectory⟩]
          exact ih h

/-- Where the directories are there, making the way is following it. -/
theorem makeWay_of_follow {steps : List Component} {made : Bool} {target : Location}
    (h : d.follow location steps = .ok target) :
    d.makeWay made location steps = (.ok target, d) := by
  induction steps generalizing location with
  | nil =>
    cases h
    rfl
  | cons step rest ih =>
    cases step with
    | root | current | parent => exact ih h
    | name name =>
      rw [follow] at h
      rw [makeWay]
      split at h
      · cases h
      · split at h
        · cases h
        · next henter =>
          rw [henter]
          exact ih h

/-- Making a way adds directories and touches no file, also where it fails. -/
theorem widens_makeWay (d : Disk) (made : Bool) (location : Location) (steps : List Component) :
    d.Widens (d.makeWay made location steps).2 := by
  induction steps generalizing location d made with
  | nil => exact .refl d
  | cons step rest ih =>
    cases step with
    | root | current | parent => exact ih d made _
    | name name =>
      rw [makeWay]
      split
      · exact .refl d
      · split
        · exact ih d made _
        · next henter =>
          exact (Widens.put_directory (enter_eq_missing_iff.1 henter)).trans (ih _ true _)
        · exact .refl d

/-- A way that was made is there. -/
theorem follow_of_makeWay {steps : List Component} {made : Bool} {target : Location}
    (h : d.makeWay made location steps = (.ok target, d')) :
    d'.follow location steps = .ok target := by
  induction steps generalizing location d made with
  | nil =>
    cases h
    rfl
  | cons step rest ih =>
    cases step with
    | root | current | parent => exact ih h
    | name name =>
      rw [makeWay] at h
      rw [follow]
      split at h
      · cases h
      · split at h
        · next henter =>
          obtain ⟨rfl, hdirectory⟩ := enter_eq_ok_iff.1 henter
          have hwidens := widens_makeWay d made (location ++ [name]) rest
          rw [h] at hwidens
          rw [enter_eq_ok_iff.2 ⟨rfl, hwidens.grows.directory _ hdirectory⟩]
          exact ih h
        · have hwidens := widens_makeWay (d.put (location ++ [name]) .directory) true
            (location ++ [name]) rest
          have hmade : (d.put (location ++ [name]) .directory).entries.find? (location ++ [name]) =
              some .directory := by
            rw [find?_put, if_pos rfl]
          rw [h] at hwidens
          rw [enter_eq_ok_iff.2 ⟨rfl, hwidens.grows.directory _ hmade⟩]
          exact ih h
        · cases h

/-! ## Directories -/

/-- A directory is there. -/
def HasDirectory (d : Disk) (path : Path) : Prop :=
  path.text.isEmpty = true ∨ checkPath path = .ok () ∧
    ∃ location, d.follow d.workingDirectory path.components = .ok location

theorem HasDirectory.of_grows {path : Path} (h : d.HasDirectory path) (hgrows : d.Grows d') :
    d'.HasDirectory path := by
  refine h.imp id fun ⟨hpath, location, hfollow⟩ => ⟨hpath, location, ?_⟩
  rw [hgrows.workingDirectory]
  exact follow_of_grows hgrows hfollow

/-- Making a directory that is there does nothing. -/
theorem HasDirectory.makeDirectories_eq {path : Path} (h : d.HasDirectory path) :
    d.makeDirectories path = (.ok (), d) := by
  unfold makeDirectories
  rcases h with hempty | ⟨hpath, location, hfollow⟩
  · rw [if_pos hempty]
  · rw [hpath, makeWay_of_follow hfollow]
    split <;> rfl

theorem widens_makeDirectories (d : Disk) (path : Path) :
    d.Widens (d.makeDirectories path).2 := by
  unfold makeDirectories
  split
  · exact .refl d
  · split
    · exact .refl d
    · exact widens_makeWay d false d.workingDirectory path.components

/-- A directory that was made is there. -/
theorem hasDirectory_of_makeDirectories {path : Path}
    (h : d.makeDirectories path = (.ok (), d')) : d'.HasDirectory path := by
  have hwidens := d.widens_makeDirectories path
  rw [h] at hwidens
  unfold makeDirectories at h
  split at h
  · next hempty => exact .inl hempty
  · split at h
    · cases h
    · next hpath =>
      rcases hway : d.makeWay false d.workingDirectory path.components with ⟨result, made⟩
      rw [hway] at h
      cases result with
      | error e => cases h
      | ok location =>
        cases h
        refine .inr ⟨hpath, location, ?_⟩
        rw [hwidens.grows.workingDirectory]
        exact follow_of_makeWay hway

/-- Makes the directory of a file on a disk. -/
def makeParent (d : Disk) (path : Path) : Except (Path × StorageError) Unit × Disk :=
  (Storage.makeParent path : StateM Disk (Except (Path × StorageError) Unit)).run d

theorem makeParent_eq (d : Disk) (path : Path) :
    d.makeParent path =
      match path.parent? with
      | some parent =>
        Prod.map (Except.mapError fun e => (parent, e)) id (d.makeDirectories parent)
      | none => (.ok (), d) := by
  unfold makeParent Storage.makeParent
  cases path.parent? <;> rfl

/-- The directory of a file is there. -/
def HasParent (d : Disk) (path : Path) : Prop :=
  ∀ parent, path.parent? = some parent → d.HasDirectory parent

theorem HasParent.makeParent_eq {path : Path} (h : d.HasParent path) :
    d.makeParent path = (.ok (), d) := by
  rw [Disk.makeParent_eq]
  split
  · next parent hparent =>
    rw [(h parent hparent).makeDirectories_eq]
    rfl
  · rfl

theorem widens_makeParent (d : Disk) (path : Path) : d.Widens (d.makeParent path).2 := by
  rw [makeParent_eq]
  split
  · next parent _ => exact d.widens_makeDirectories parent
  · exact .refl d

theorem hasParent_of_makeParent {path : Path} (h : d.makeParent path = (.ok (), d')) :
    d'.HasParent path := by
  intro parent hparent
  rw [makeParent_eq, hparent] at h
  dsimp only at h
  rcases hmake : d.makeDirectories parent with ⟨result, made⟩
  rw [hmake] at h
  cases result with
  | error e => cases h
  | ok _ =>
    cases h
    exact hasDirectory_of_makeDirectories hmake

/-- A failure to make the directory of a file is about this directory. -/
theorem parent?_of_makeParent_error {path about : Path} {failure : StorageError}
    (h : d.makeParent path = (.error (about, failure), d')) : path.parent? = some about := by
  rw [makeParent_eq] at h
  split at h
  · next parent hparent =>
    rcases hmake : d.makeDirectories parent with ⟨result, made⟩
    rw [hmake] at h
    cases result with
    | error e =>
      cases h
      exact hparent
    | ok _ => cases h
  · cases h

/-- The steps to the directory of a file lead to it. -/
theorem HasParent.exists_follow {path : Path} (h : d.HasParent path) :
    ∃ location, d.follow d.workingDirectory path.directory = .ok location := by
  cases hparent : path.parent? with
  | none =>
    rw [Path.directory_of_parent?_eq_none hparent]
    exact ⟨_, rfl⟩
  | some parent =>
    rw [← Path.components_of_parent? hparent]
    rcases h parent hparent with hempty | ⟨_, hfollow⟩
    · rw [Path.components_of_isEmpty (String.isEmpty_iff.1 hempty)]
      exact ⟨_, rfl⟩
    · exact hfollow

/-! ## One file -/

theorem locate_eq_ok_iff {path : Path} :
    d.locate path = .ok place ↔ checkPath path = .ok () ∧
      ∃ location name, d.follow d.workingDirectory path.directory = .ok location ∧
        path.fileName? = some name ∧ checkName name = .ok () ∧ place = location ++ [name] := by
  unfold locate
  constructor
  · intro h
    obtain ⟨_, hpath, h⟩ := bind_eq_ok_iff.1 h
    obtain ⟨location, hfollow, h⟩ := bind_eq_ok_iff.1 h
    split at h
    · cases h
    · next name hname =>
      obtain ⟨_, hcheck, h⟩ := bind_eq_ok_iff.1 h
      cases h
      exact ⟨hpath, location, name, hfollow, hname, hcheck, rfl⟩
  · rintro ⟨hpath, location, name, hfollow, hname, hcheck, rfl⟩
    rw [hpath, hfollow]
    simp only [hname]
    rw [hcheck]
    rfl

theorem locate_of_grows {path : Path} (h : d.locate path = .ok place) (hgrows : d.Grows d') :
    d'.locate path = .ok place := by
  obtain ⟨hpath, location, name, hfollow, hrest⟩ := locate_eq_ok_iff.1 h
  refine locate_eq_ok_iff.2 ⟨hpath, location, name, ?_, hrest⟩
  rw [hgrows.workingDirectory]
  exact follow_of_grows hgrows hfollow

/-- The place of a file is not the root. -/
theorem entry?_of_locate {path : Path} (h : d.locate path = .ok place) (e : Disk) :
    e.entry? place = e.entries.find? place := by
  obtain ⟨_, location, name, _, _, _, rfl⟩ := locate_eq_ok_iff.1 h
  exact entry?_name e location name

/-- A path can be written to at a place: the directory is there, the path leads to the place,
and the place is that of a file. -/
structure Ready (d : Disk) (path : Path) (place : Location) : Prop where
  parent : d.HasParent path
  locate : d.locate path = .ok place
  file : d.contents place ≠ none

theorem Ready.of_grows {path : Path} (h : d.Ready path place) (hgrows : d.Grows d') :
    d'.Ready path place where
  parent := fun parent hparent => (h.parent parent hparent).of_grows hgrows
  locate := locate_of_grows h.locate hgrows
  file := hgrows.file place h.file

/-- A write that succeeds is the change of one text. -/
theorem write_eq_ok_iff {path : Path} {text : String} :
    d.write path text = (.ok (), d') ↔ ∃ place, d.locate path = .ok place ∧
      d.entries.find? place ≠ some .directory ∧ d' = d.put place (.file (some text)) := by
  unfold write
  cases hlocate : d.locate path with
  | error e => simp
  | ok place =>
    simp only [entry?_of_locate hlocate]
    split
    · next hdirectory => simp [hdirectory]
    · next hfree =>
      refine ⟨fun h => ⟨place, rfl, hfree, ?_⟩, fun ⟨_, hplace, _, h⟩ => ?_⟩
      · cases h
        rfl
      · cases hplace
        rw [h]

/-- Saves a text at a path of a disk. -/
def save (d : Disk) (path : Path) (text : String) : Except (Path × StorageError) Unit × Disk :=
  (Storage.save path text : StateM Disk (Except (Path × StorageError) Unit)).run d

theorem save_eq (d : Disk) (path : Path) (text : String) :
    d.save path text =
      match d.makeParent path with
      | (.error failure, made) => (.error failure, made)
      | (.ok (), made) =>
        Prod.map (Except.mapError fun e => (path, e)) id (made.write path text) := by
  rcases hmake : d.makeParent path with ⟨result, made⟩
  unfold makeParent at hmake
  unfold save Storage.save
  rw [StateT.run_bind, hmake]
  cases result <;> rfl

theorem save_eq_ok_iff {path : Path} {text : String} :
    d.save path text = (.ok (), d') ↔
      ∃ made, d.makeParent path = (.ok (), made) ∧ made.write path text = (.ok (), d') := by
  rw [save_eq]
  rcases d.makeParent path with ⟨result, made⟩
  cases result with
  | error failure => simp
  | ok _ =>
    rcases hwrite : made.write path text with ⟨result, written⟩
    cases result <;> simp [Except.mapError, hwrite]

/-- At a place that is ready nothing but one text changes. -/
theorem Ready.save_eq {path : Path} (h : d.Ready path place) (text : String) :
    d.save path text = (.ok (), d.put place (.file (some text))) := by
  obtain ⟨content, hcontent⟩ := Option.ne_none_iff_exists'.1 h.file
  have hfile : d.entries.find? place ≠ some .directory := by
    rw [contents_eq_some_iff.1 hcontent]
    nofun
  exact save_eq_ok_iff.2
    ⟨d, h.parent.makeParent_eq, write_eq_ok_iff.2 ⟨place, h.locate, hfile, rfl⟩⟩

/-- What was saved is at a place that is ready, and no text elsewhere has changed. -/
theorem save_spec {path : Path} {text : String} (h : d.save path text = (.ok (), d')) :
    ∃ place, d.Grows d' ∧ d'.Ready path place ∧
      d'.contents = Function.update d.contents place (some (some text)) := by
  obtain ⟨made, hmake, hwrite⟩ := save_eq_ok_iff.1 h
  have hwidens := d.widens_makeParent path
  have hparent := hasParent_of_makeParent hmake
  rw [hmake] at hwidens
  obtain ⟨place, hlocate, hfree, rfl⟩ := write_eq_ok_iff.1 hwrite
  have hput : made.Grows (made.put place (.file (some text))) := Grows.put_file hfree
  have htexts := contents_put_file made place (some text)
  refine ⟨place, hwidens.grows.trans hput, ⟨fun parent h => (hparent parent h).of_grows hput,
    locate_of_grows hlocate hput, ?_⟩, ?_⟩
  · rw [htexts, Function.update_self]
    simp
  · rw [htexts, hwidens.contents]

/-- A write that fails changes nothing.  Where the directory of the file is there, it is refused
for the path or the name, or because the place is that of a directory. -/
theorem write_error {path : Path} {text : String} {failure : StorageError}
    (h : d.write path text = (.error failure, d')) :
    d' = d ∧ (d.HasParent path →
      checkPath path = .error failure ∨ failure = .tooLong ∨ failure = .isDirectory) := by
  unfold write at h
  cases hlocate : d.locate path with
  | ok place =>
    rw [hlocate] at h
    dsimp only at h
    split at h
    · cases h
      exact ⟨rfl, fun _ => .inr (.inr rfl)⟩
    · cases h
  | error e =>
    rw [hlocate] at h
    cases h
    refine ⟨rfl, fun hparent => ?_⟩
    obtain ⟨location, hfollow⟩ := hparent.exists_follow
    rcases bind_eq_error_iff.1 hlocate with hpath | ⟨_, _, hlocate⟩
    · exact .inl hpath
    rw [hfollow] at hlocate
    cases hname : path.fileName? with
    | none =>
      simp only [hname] at hlocate
      cases hlocate
      exact .inr (.inr rfl)
    | some name =>
      simp only [hname] at hlocate
      unfold checkName at hlocate
      split at hlocate
      · cases hlocate
        exact .inr (.inl rfl)
      · cases hlocate

/-- What could not be saved changed no text.  The failure is about the directory of the file or
about the file, and then the directory is there. -/
theorem save_error {path about : Path} {text : String} {failure : StorageError}
    (h : d.save path text = (.error (about, failure), d')) :
    d.Widens d' ∧ (path.parent? = some about ∨ about = path ∧
      (checkPath path = .error failure ∨ failure = .tooLong ∨ failure = .isDirectory)) := by
  have hwidens := d.widens_makeParent path
  rw [save_eq] at h
  rcases hmake : d.makeParent path with ⟨result, made⟩
  rw [hmake] at h hwidens
  cases result with
  | error e =>
    cases h
    exact ⟨hwidens, .inl (parent?_of_makeParent_error hmake)⟩
  | ok _ =>
    have hparent := hasParent_of_makeParent hmake
    rcases hwrite : made.write path text with ⟨result, written⟩
    dsimp only at h
    rw [hwrite] at h
    cases result with
    | error e =>
      cases h
      obtain ⟨rfl, hfailure⟩ := write_error hwrite
      exact ⟨hwidens, .inr ⟨rfl, hfailure hparent⟩⟩
    | ok _ => cases h

/-! ## Reading what was written -/

/-- The text at a place that is ready is what is read there. -/
theorem Ready.read_eq {path : Path} {text : String} (h : d.Ready path place)
    (htext : d.contents place = some (some text)) : d.read path = .ok text := by
  have hentry : d.entry? place = some (.file (some text)) := by
    rw [entry?_of_locate h.locate, contents_eq_some_iff.1 htext]
  have hfile : d.fileAt path = .ok (some text) := by
    refine bind_eq_ok_iff.2 ⟨place, h.locate, ?_⟩
    rw [hentry]
    rfl
  rw [read, hfile]
  rfl

/-- What was saved is read back. -/
theorem read_of_save {path : Path} {text : String} (h : d.save path text = (.ok (), d')) :
    d'.read path = .ok text := by
  obtain ⟨place, _, hready, hcontents⟩ := save_spec h
  refine hready.read_eq ?_
  rw [hcontents, Function.update_self]

/-- A path at which an empty file can be saved. -/
def Writable (d : Disk) (path : Path) : Prop := (d.save path "").1 = .ok ()

instance (d : Disk) (path : Path) : Decidable (d.Writable path) :=
  match h : (d.save path "").1 with
  | .ok () => .isTrue h
  | .error _ => .isFalse fun hok => by rw [Writable, h] at hok; cases hok

/-- Where one text can be saved any other can. -/
theorem exists_save_of_writable {path : Path} (h : d.Writable path) (text : String) :
    ∃ d', d.save path text = (.ok (), d') := by
  obtain ⟨made, hmake, hwrite⟩ := save_eq_ok_iff.1 (Prod.ext h rfl)
  obtain ⟨place, hlocate, hfree, _⟩ := write_eq_ok_iff.1 hwrite
  exact ⟨_, save_eq_ok_iff.2 ⟨made, hmake, write_eq_ok_iff.2 ⟨place, hlocate, hfree, rfl⟩⟩⟩

/-! ## Files one by one -/

/-- Saves files from left to right and stops at the first failure. -/
def writeFiles (d : Disk) (files : List (Path × String)) : Except StorageError Unit × Disk :=
  (Storage.writeAll files : StateM Disk (Except StorageError Unit)).run d

theorem writeFiles_cons_eq_ok_iff {path : Path} {text : String} {rest : List (Path × String)} :
    d.writeFiles ((path, text) :: rest) = (.ok (), d') ↔
      ∃ next, d.save path text = (.ok (), next) ∧ next.writeFiles rest = (.ok (), d') := by
  rcases hsave : d.save path text with ⟨result, next⟩
  unfold save at hsave
  unfold writeFiles
  rw [Storage.writeAll, StateT.run_bind, hsave]
  cases result with
  | error failure =>
    refine ⟨fun h => ?_, fun ⟨_, hfirst, _⟩ => ?_⟩
    · cases h
    · cases hfirst
  | ok _ =>
    refine ⟨fun h => ⟨next, rfl, h⟩, fun ⟨_, hfirst, hrest⟩ => ?_⟩
    cases hfirst
    exact hrest

/-- What the files hold after texts were put at places one by one. -/
def putTexts (before : Location → Option (Option String)) (texts : List (Location × String)) :
    Location → Option (Option String) :=
  texts.foldl (fun contents text => Function.update contents text.1 (some (some text.2))) before

/-- A disk comes from another one by writing files one by one: each path leads to a place,
and the texts that differ are those put at the places. -/
structure Wrote (d : Disk) (files : List (Path × String)) (places : List Location) (d' : Disk) :
    Prop where
  grows : d.Grows d'
  ready : List.Forall₂ (fun file place => d'.Ready file.1 place) files places
  contents : d'.contents = putTexts d.contents (places.zip (files.map (·.2)))

theorem writeFiles_spec {files : List (Path × String)} (h : d.writeFiles files = (.ok (), d')) :
    ∃ places, d.Wrote files places d' := by
  induction files generalizing d with
  | nil =>
    cases h
    exact ⟨[], .refl d', .nil, rfl⟩
  | cons file rest ih =>
    obtain ⟨path, text⟩ := file
    obtain ⟨next, hsave, hrest⟩ := writeFiles_cons_eq_ok_iff.1 h
    obtain ⟨place, hgrows, hready, hcontents⟩ := save_spec hsave
    obtain ⟨places, hwrote⟩ := ih hrest
    refine ⟨place :: places, hgrows.trans hwrote.grows, ?_, ?_⟩
    · exact .cons (hready.of_grows hwrote.grows) hwrote.ready
    · rw [hwrote.contents, hcontents]
      rfl

/-! ## Writing again -/

/-- A disk on the way of a second run: compared with the end of the first run it has other
texts at most where the first run had them at this point. -/
structure Between (early late e : Disk) : Prop where
  workingDirectory : e.workingDirectory = late.workingDirectory
  entry : ∀ location, e.entries.find? location = late.entries.find? location ∨
    ∃ content, e.entries.find? location = some (.file content) ∧
      early.entries.find? location = some (.file content)

namespace Between

variable {early late : Disk}

theorem eq_late (h : Between late late e) : e = late := by
  have hentries : e.entries = late.entries := by
    refine Table.ext_find? fun location => ?_
    rcases h.entry location with hsame | ⟨content, hfile, hlate⟩
    · exact hsame
    · rw [hfile, hlate]
  obtain ⟨entries, workingDirectory⟩ := e
  obtain ⟨lateEntries, lateDirectory⟩ := late
  cases hentries
  cases h.workingDirectory
  rfl

theorem grows (h : Between early late e) (hgrows : early.Grows late) : late.Grows e where
  workingDirectory := h.workingDirectory
  directory := fun location hlate => by
    rcases h.entry location with hsame | ⟨content, _, hearly⟩
    · rw [hsame, hlate]
    · -- A file of the early disk cannot have become a directory.
      have hfile : late.contents location ≠ none := by
        apply hgrows.file
        rw [contents_eq_some_iff.2 hearly]
        simp
      exact absurd (by rw [contents, hlate]) hfile
  file := fun location hlate => by
    rcases h.entry location with hsame | ⟨content, hfile, _⟩
    · rwa [contents, hsame, ← contents]
    · rw [contents_eq_some_iff.2 hfile]
      simp

/-- One file of the second run follows that of the first. -/
theorem save {path : Path} {text : String} {next : Disk} (h : Between early late e)
    (hsave : early.save path text = (.ok (), next)) (hgrows : next.Grows late) :
    ∃ next', e.save path text = (.ok (), next') ∧ Between next late next' := by
  obtain ⟨place, hearly, hready, hcontents⟩ := save_spec hsave
  have hready' : e.Ready path place :=
    (hready.of_grows hgrows).of_grows (h.grows (hearly.trans hgrows))
  refine ⟨_, hready'.save_eq text, h.workingDirectory, fun location => ?_⟩
  rw [find?_put]
  by_cases hplace : location = place
  · right
    refine ⟨some text, if_pos hplace, contents_eq_some_iff.1 ?_⟩
    rw [hcontents, hplace, Function.update_self]
  · rw [if_neg hplace]
    refine (h.entry location).imp id fun ⟨content, hfile, hold⟩ => ⟨content, hfile, ?_⟩
    rw [← contents_eq_some_iff, hcontents, Function.update_of_ne hplace]
    exact contents_eq_some_iff.2 hold

theorem writeFiles {files : List (Path × String)} (h : Between early late e)
    (hwrite : early.writeFiles files = (.ok (), late)) : e.writeFiles files = (.ok (), late) := by
  induction files generalizing early e with
  | nil =>
    cases hwrite
    rw [h.eq_late]
    rfl
  | cons file rest ih =>
    obtain ⟨path, text⟩ := file
    obtain ⟨next, hfirst, hrest⟩ := writeFiles_cons_eq_ok_iff.1 hwrite
    obtain ⟨places, hwrote⟩ := writeFiles_spec hrest
    obtain ⟨next', hfirst', hnext⟩ := h.save hfirst hwrote.grows
    exact writeFiles_cons_eq_ok_iff.2 ⟨next', hfirst', ih hnext hrest⟩

end Between

/-- Files that were written can be written again, and the disk stays as it is. -/
theorem writeFiles_again {files : List (Path × String)} (h : d.writeFiles files = (.ok (), d')) :
    d'.writeFiles files = (.ok (), d') :=
  Between.writeFiles ⟨rfl, fun _ => .inl rfl⟩ h

end Disk

end Emitter
