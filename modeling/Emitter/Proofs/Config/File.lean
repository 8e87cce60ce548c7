import Mathlib
import Emitter.Config.File
import Emitter.Proofs.Storage.Disk
import Emitter.Proofs.Toml.Reader

/-!
# Configuration files read back

A configuration that has a document is what its document is read as, whatever texts
and keys it has (`parse?_lines`): every setting is written, so no default takes its
place, not even for an empty table of substitutions.

On a disk this says that a configuration which was written is what is read from the
same path (`read_write`).  The two kinds of configuration without a document leave the
disk alone.  One is an error as it should be, since an indent width beyond the range of
the format cannot be written.  At the other, a text with a long run of quotes, writing
breaks off, although it is a text like any other (`write_quoteWall`).
-/

namespace Emitter

namespace Toml

/-- A table of texts is read as the table. -/
theorem texts?_stringValues (table : Substitutions) :
    (Value.table (stringValues table.entries)).texts? = some table := by
  have hread : ∀ entries : List (String × String), (stringValues entries).mapM
      (fun entry => entry.2.text?.map fun text => (entry.1, text)) = some entries := by
    intro entries
    induction entries with
    | nil => rfl
    | cons e entries ih =>
      rw [stringValues, List.map_cons, List.mapM_cons, ← stringValues, ih]
      rfl
  show ((stringValues table.entries).mapM fun entry : String × Value =>
    entry.2.text?.map fun text => (entry.1, text)).bind (fun entries =>
      some (Table.ofList entries)) = some table
  rw [hread, Option.bind_some, Table.ofList_entries]

end Toml

namespace Config

variable {c : Config} {d : Disk} {path : Path}

/-! ## Documents -/

/-- The settings before the table of substitutions, as values. -/
def settingValues (c : Config) : List (String × Toml.Value) :=
  [(Setting.target.key, .string c.target), (Setting.indentWidth.key, .integer c.indentWidth),
    (Setting.holderType.key, .string c.holderType), (Setting.selfName.key, .string c.selfName),
    (Setting.emitRuntime.key, .boolean c.emitRuntime)]

/-- The lines of a document say the settings one by one and then the substitutions. -/
theorem says_lines (h : c.indentWidth < Toml.integerLimit) :
    Toml.Says c.lines
      (Toml.entryLines c.settingValues ++ .header [] Setting.builtins.key ::
        Toml.entryLines (Toml.stringValues c.builtins.entries)) := by
  have htable := (Toml.Says.texts c.builtins.entries).header Setting.builtins.key (by decide)
    (List.all_eq_true.1 (by decide))
  have hruntime := htable.emptyLine.entry Setting.emitRuntime.key
    (Toml.denotes_boolean c.emitRuntime)
  have hself := hruntime.entry Setting.selfName.key (Toml.denotes_written c.selfName)
  have hholder := hself.entry Setting.holderType.key (Toml.denotes_written c.holderType)
  have hindent := hholder.entry Setting.indentWidth.key (Toml.denotes_repr h)
  have htarget := hindent.entry Setting.target.key (Toml.denotes_written c.target)
  simp only [lines, List.append_assoc]
  exact htarget

/-- The settings and the substitutions give the configuration back. -/
theorem ofEntries?_settingValues (c : Config) :
    ofEntries? (c.settingValues ++
      [(Setting.builtins.key, .table (Toml.stringValues c.builtins.entries))]) = some c := by
  simp [ofEntries?, settingValues, Toml.setting?, Setting.key, List.lookup, Toml.Value.text?,
    Toml.Value.natural?, Toml.Value.boolean?, Toml.texts?_stringValues]

/-- The document of a configuration is read as the configuration. -/
theorem parse?_lines (h : c.indentWidth < Toml.integerLimit) :
    parse? (String.ofList c.lines) = some c := by
  have hmark : Toml.skipMark c.lines = c.lines := rfl
  have hinner : ((Toml.stringValues c.builtins.entries).map (·.1)).Nodup := by
    rw [Toml.keys_stringValues]
    exact c.builtins.nodup_keys
  have hfill := Toml.fill_values_table c.settingValues _ Setting.builtins.key
    (by simp [settingValues, Setting.key]) (by simp [settingValues, Setting.key]) hinner
  rw [parse?, Toml.parse?_of_says hmark (says_lines h), hfill, Option.map_some,
    Toml.finishEntries_values_table]
  exact ofEntries?_settingValues c

/-- The three kinds of configuration: with a document, too wide, and with too long a run of
quotes. -/
theorem document_cases (c : Config) :
    (c.indentWidth < Toml.integerLimit ∧ (∀ text ∈ c.texts, Toml.isWritable text.toList = true) ∧
      c.document = .ok (String.ofList c.lines)) ∨
    (Toml.integerLimit ≤ c.indentWidth ∧ c.document = .error (.failure .wideIndent)) ∨
    (c.indentWidth < Toml.integerLimit ∧
      (∃ text ∈ c.texts, Toml.isWritable text.toList = false) ∧
      c.document = .error .breakdown) := by
  unfold document
  split
  · next hwide => exact .inr (.inl ⟨hwide, rfl⟩)
  · next hfits =>
    rw [Nat.not_le] at hfits
    split
    · next hall => exact .inl ⟨hfits, List.all_eq_true.1 hall, rfl⟩
    · next hsome =>
      rw [Bool.not_eq_true, List.all_eq_false] at hsome
      obtain ⟨text, htext, hlong⟩ := hsome
      exact .inr (.inr ⟨hfits, ⟨text, htext, by simpa using hlong⟩, rfl⟩)

/-! ## Files -/

/-- Writes the file of a configuration on a disk. -/
def writeOn (c : Config) (d : Disk) (path : Path) : Except (Stop ConfigError) Unit × Disk :=
  (c.write path : StateM Disk (Except (Stop ConfigError) Unit)).run d

/-- Reads the file of a configuration from a disk. -/
def readFrom (d : Disk) (path : Path) : Except ConfigError Config × Disk :=
  (read path : StateM Disk (Except ConfigError Config)).run d

/-- A configuration without a document leaves the disk as it is. -/
theorem writeOn_of_error {stop : Stop DocumentError} (h : c.document = .error stop) :
    c.writeOn d path = (.error (stop.map .unwritable), d) := by
  rw [writeOn, write, h]
  rfl

theorem writeOn_of_ok {document : String} (h : c.document = .ok document) :
    c.writeOn d path =
      Prod.map (Except.mapError fun failure => .failure (.storage failure.1 failure.2)) id
        (d.save path document) := by
  rcases hsave : d.save path document with ⟨result, d'⟩
  unfold Disk.save at hsave
  rw [writeOn, write, h]
  simp only
  rw [StateT.run_bind, hsave]
  cases result <;> rfl

/-- What could not be written changed no text, and an error of the storage is about the directory
of the file or about the file. -/
theorem writeOn_error {stop : Stop ConfigError} {d' : Disk}
    (h : c.writeOn d path = (.error stop, d')) :
    d.Widens d' ∧ ∀ about cause, stop = .failure (.storage about cause) →
      path.parent? = some about ∨ about = path := by
  cases hdocument : c.document with
  | error e =>
    rw [writeOn_of_error hdocument] at h
    cases h
    refine ⟨.refl d, fun about cause hstop => ?_⟩
    cases e <;> cases hstop
  | ok document =>
    rw [writeOn_of_ok hdocument] at h
    rcases hsave : d.save path document with ⟨result, saved⟩
    rw [hsave] at h
    cases result with
    | ok _ => cases h
    | error failure =>
      cases h
      obtain ⟨hwidens, habout⟩ := Disk.save_error hsave
      refine ⟨hwidens, fun about cause hstop => ?_⟩
      cases hstop
      exact habout.imp id And.left

theorem readFrom_of_ok {document : String} (hread : d.read path = .ok document)
    (h : parse? document = some c) : readFrom d path = (.ok c, d) := by
  have hstep : (Storage.read path : StateM Disk (Except StorageError String)).run d =
      pure (.ok document, d) := by
    rw [← hread]
    rfl
  rw [readFrom, read, StateT.run_bind, hstep, pure_bind]
  simp only [h]
  rfl

/-- A configuration that can be written is read back from where it was written.  Otherwise
the disk stays as it is: a width that is too large is an error, and at a run of quotes that is
too long writing breaks off. -/
theorem read_write (c : Config) (d : Disk) (path : Path) :
    (Toml.integerLimit ≤ c.indentWidth →
      c.writeOn d path = (.error (.failure (.unwritable .wideIndent)), d)) ∧
    (c.indentWidth < Toml.integerLimit →
      ((∀ text ∈ c.texts, Toml.isWritable text.toList = true) → d.Writable path →
        ∃ d', c.writeOn d path = (.ok (), d') ∧ readFrom d' path = (.ok c, d')) ∧
      ((∃ text ∈ c.texts, Toml.isWritable text.toList = false) →
        c.writeOn d path = (.error .breakdown, d))) := by
  rcases c.document_cases with ⟨hfits, hall, hdocument⟩ | ⟨hwide, hdocument⟩ |
    ⟨hfits, ⟨text, htext, hlong⟩, hdocument⟩
  · refine ⟨fun hwide => absurd hfits (Nat.not_lt.2 hwide), fun _ => ⟨fun _ hwritable => ?_, ?_⟩⟩
    · obtain ⟨d', hsave⟩ := Disk.exists_save_of_writable hwritable (String.ofList c.lines)
      refine ⟨d', ?_, readFrom_of_ok (Disk.read_of_save hsave) (parse?_lines hfits)⟩
      rw [writeOn_of_ok hdocument, hsave]
      rfl
    · rintro ⟨text, htext, hlong⟩
      rw [hall text htext] at hlong
      cases hlong
  · refine ⟨fun _ => writeOn_of_error hdocument, fun hfits => ?_⟩
    exact absurd hfits (Nat.not_lt.2 hwide)
  · refine ⟨fun hwide => absurd hfits (Nat.not_lt.2 hwide), fun _ => ⟨fun hall => ?_, fun _ => ?_⟩⟩
    · rw [hall text htext] at hlong
      cases hlong
    · exact writeOn_of_error hdocument

/-- A configuration at the limit of the width, with texts for all forms of strings and keys. -/
def awkward : Config where
  target := ""
  indentWidth := 9223372036854775807
  holderType := "\\ '''\n\"\"\" \"\""
  selfName := "\r\t\x07é"
  builtins := Table.ofList
    [("", "''"), ("bare-key", "\\'"), ("a 'b' \"c\"\n", "\n\"\""), ("π", "\"'''\"")]

theorem read_write_awkward :
    awkward.indentWidth < Toml.integerLimit ∧
    (∀ text ∈ awkward.texts, Toml.isWritable text.toList = true) ∧
    ({} : Disk).Writable ⟨"a/b/q-lang.toml"⟩ ∧
    ∃ d', awkward.writeOn {} ⟨"a/b/q-lang.toml"⟩ = (.ok (), d') ∧
      readFrom d' ⟨"a/b/q-lang.toml"⟩ = (.ok awkward, d') := by
  have hfits : awkward.indentWidth < Toml.integerLimit := by decide
  have hall : ∀ text ∈ awkward.texts, Toml.isWritable text.toList = true := by decide +kernel
  have hwritable : ({} : Disk).Writable ⟨"a/b/q-lang.toml"⟩ := by decide +kernel
  exact ⟨hfits, hall, hwritable, ((read_write awkward {} _).2 hfits).1 hall hwritable⟩

/-- A configuration whose target is a run of 256 quotes. -/
def quoteWall : Config := { target := String.ofList (List.replicate 256 '"') }

theorem isWritable_quoteWall : Toml.isWritable quoteWall.target.toList = false := by
  have htarget : quoteWall.target.toList = List.replicate 256 '"' := String.toList_ofList
  have hrun := Toml.longestRun_replicate '"' 256 0
  rw [← htarget] at hrun
  simp [Toml.isWritable, hrun, Toml.runLimit]

/-- A width that fits and a path that can be written to do not suffice. -/
theorem write_quoteWall :
    quoteWall.indentWidth < Toml.integerLimit ∧ ({} : Disk).Writable ⟨"q-lang.toml"⟩ ∧
    quoteWall.writeOn {} ⟨"q-lang.toml"⟩ = (.error .breakdown, {}) := by
  have hfits : quoteWall.indentWidth < Toml.integerLimit := by decide
  have htext : quoteWall.target ∈ quoteWall.texts := List.mem_cons_self
  refine ⟨hfits, by decide +kernel, ?_⟩
  rcases quoteWall.document_cases with ⟨_, hall, _⟩ | ⟨hwide, _⟩ | ⟨_, _, hdocument⟩
  · exact absurd (hall _ htext) (by simp [isWritable_quoteWall])
  · exact absurd hfits (Nat.not_lt.2 hwide)
  · exact writeOn_of_error hdocument

end Config

end Emitter
