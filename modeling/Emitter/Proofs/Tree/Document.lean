import Mathlib.Data.Nat.Digits.Defs
import Emitter.Proofs.Json.RoundTrip
import Emitter.Proofs.Outcome
import Emitter.Proofs.Tree.Loading
import Emitter.Tree.Document

/-!
# Tree documents read back

`Tree.document` writes a tree and `Tree.parse` reads one.  Reading JSON undoes writing
it (`Json.parse?_pretty`), so what is left to show is that the value of a tree is read as
that tree.  The lemmas go up through the parts of that value:

* the fields of a record are found by name when no name is used twice (`slots_record`);
* words, node numbers, names and spans are read back, and these lemmas are simp lemmas;
* the word of a kind leads to the reader that takes its fields (`kindOf?_label`), and the
  value of a kind is sound in full (`isSound_kind`), as its reader demands;
* nodes and the two parts of a tree follow (`node?_toJson`, `parts?_toJson`).

Loading the parts of a loaded tree gives that tree again, recomputed owners included
(`Tree.ofParts_nodes_root`), and so does its document.
-/

namespace Emitter

namespace Json

/-! ## Fields -/

theorem mapM_eq_some_map {α β : Type} {read : α → Option β} {result : α → β} {items : List α}
    (h : ∀ item ∈ items, read item = some (result item)) :
    items.mapM read = some (items.map result) := by
  induction items with
  | nil => rfl
  | cons first rest ih =>
    have hfirst := h first List.mem_cons_self
    have hrest := ih fun item hi => h item (List.mem_cons_of_mem _ hi)
    rw [List.mapM_cons, hfirst, hrest]
    rfl

theorem filter_eq_nil_of_notMem {members : List (Option String × Json)} {name : String}
    (h : some name ∉ members.map (·.1)) :
    members.filter (fun m => decide (m.1 = some name)) = [] := by
  rw [List.filter_eq_nil_iff]
  intro member hm he
  exact h (List.mem_map.2 ⟨member, hm, by simpa using he⟩)

theorem slot_of_notMem {members : List (Option String × Json)} {name : String}
    (h : some name ∉ members.map (·.1)) : slot members name = some none := by
  rw [slot, filter_eq_nil_of_notMem h]

theorem slot_cons_self {members : List (Option String × Json)} {name : String}
    (h : some name ∉ members.map (·.1)) (value : Json) :
    slot ((some name, value) :: members) name = some (some value) := by
  simp [slot, filter_eq_nil_of_notMem h]

theorem slot_cons_of_ne {name : String} {other : Option String} (h : other ≠ some name)
    (value : Json) (members : List (Option String × Json)) :
    slot ((other, value) :: members) name = slot members name := by
  simp [slot, h]

/-- A field that is written once is found. -/
theorem slot_record {fields : List (String × Json)} (h : (fields.map (·.1)).Nodup)
    {field : String × Json} (hfield : field ∈ fields) :
    slot (fields.map fun (name, value) => (some name, value)) field.1 = some (some field.2) := by
  induction fields with
  | nil => cases hfield
  | cons first rest ih =>
    obtain ⟨hnew, hrest⟩ := List.nodup_cons.1 h
    rcases List.mem_cons.1 hfield with rfl | hfield
    · exact slot_cons_self (by simpa using hnew) _
    · have hne : first.1 ≠ field.1 := fun he => hnew (List.mem_map.2 ⟨field, hfield, he.symm⟩)
      rw [List.map_cons, slot_cons_of_ne (by simpa using hne)]
      exact ih hrest hfield

/-- Reading the fields that a record has, in their order, gives their values. -/
theorem slots_record (fields : List (String × Json)) (h : (fields.map (·.1)).Nodup) :
    slots (fields.map (·.1)) (record fields) = some (fields.map fun field => some field.2) := by
  have hnamed : (fields.map fun (name, value) => (some name, value)).all (·.1.isSome) = true := by
    simp
  have hread : (fields.map (·.1)).mapM
      (slot (fields.map fun (name, value) => (some name, value))) =
        some (fields.map fun field => some field.2) := by
    rw [List.mapM_map]
    exact mapM_eq_some_map fun field hf => slot_record h hf
  rw [record, slots, if_pos hnamed, hread]

@[simp] theorem required_some {α : Type} (read : Json → Option α) (value : Json) :
    required read (some value) = read value := rfl

@[simp] theorem orElse_some {α : Type} (read : Json → Option α) (default : α) (value : Json) :
    orElse read default (some value) = read value := rfl

/-! ## Values of nodes -/

@[simp] theorem text?_text (s : String) : text? (text s) = some s := rfl

@[simp] theorem word?_natural (w : UInt32) : word? (.natural w.toNat) = some w := by
  simp [word?, w.toNat_lt]

@[simp] theorem id?_toJson (id : NodeId) : id? id.toJson = some id := by
  simp [id?, NodeId.toJson, NodeId.index]

/-- A list is read back when each item is. -/
theorem list?_map {α : Type} {read : Json → Option α} {write : α → Json}
    (h : ∀ a, read (write a) = some a) (items : List α) :
    list? read (.array (items.map write)) = some items := by
  have hread : items.mapM (read ∘ write) = some (items.map fun item => item) :=
    mapM_eq_some_map fun item _ => h item
  rw [list?, List.mapM_map, hread, List.map_id']

@[simp] theorem ids?_listToJson (ids : List NodeId) : ids? (NodeId.listToJson ids) = some ids :=
  list?_map id?_toJson ids

@[simp] theorem optional_optionToJson (id : Option NodeId) :
    optional id? (some (NodeId.optionToJson id)) = some id := by
  cases id with
  | none => rfl
  | some id =>
    have hid : optional id? (some id.toJson) = (id? id.toJson).map some := rfl
    simp [NodeId.optionToJson, orNull, hid]

@[simp] theorem span?_toJson (s : Span) : span? s.toJson = some s := by
  have hslots := slots_record [("file_id", .natural s.file.toNat),
    ("start", .natural s.start.toNat), ("end", .natural s.stop.toNat)] (by simp)
  simp only [List.map_cons, List.map_nil] at hslots
  simp [span?, Span.toJson, hslots]

@[simp] theorem name?_toJson (name : Name) : name? name.toJson = some name := by
  have hslots := slots_record [("text", .text name.text), ("span", name.span.toJson)] (by simp)
  simp only [List.map_cons, List.map_nil] at hslots
  simp [name?, Name.toJson, hslots]

@[simp] theorem names?_toJson (path : List Name) :
    list? name? (.array (path.map Name.toJson)) = some path :=
  list?_map name?_toJson path

end Json

/-! ## Kinds -/

theorem Kind.nodup_fields (kind : Kind) : (kind.fields.map (·.1)).Nodup := by
  cases kind <;> simp [Kind.fields]

/-- No field is mistaken for the word of the kind. -/
theorem Kind.kind_notMem_fields (kind : Kind) : "kind" ∉ kind.fields.map (·.1) := by
  cases kind <;> simp [Kind.fields]

/-- The word of a kind and its fields have names of their own. -/
theorem Kind.nodup_members (kind : Kind) :
    ((("kind", Json.text kind.label) :: kind.fields).map (·.1)).Nodup :=
  List.nodup_cons.2 ⟨kind.kind_notMem_fields, kind.nodup_fields⟩

/-- Splitting off the word of a kind leaves its fields. -/
theorem Kind.filter_fields (kind : Kind) :
    (kind.fields.map fun (name, value) => (some name, value)).filter
      (fun m => decide (m.1 ≠ some "kind")) =
        kind.fields.map fun (name, value) => (some name, value) := by
  rw [List.filter_eq_self]
  simp only [List.mem_map]
  rintro _ ⟨field, hf, rfl⟩
  have hne : field.1 ≠ "kind" := fun he => kind.kind_notMem_fields (List.mem_map.2 ⟨field, hf, he⟩)
  simpa using hne

namespace Json

/-- The fields of a kind are read back under its word. -/
theorem kindOf?_label (kind : Kind) : kindOf? kind.label (.record kind.fields) = some kind := by
  have hslots := slots_record kind.fields kind.nodup_fields
  cases kind with
  | typeDef form name parameters definitions =>
    simp only [Kind.fields, List.map_cons, List.map_nil] at hslots
    cases form <;> simp [Kind.label, Kind.fields, kindOf?, typeDef?, hslots]
  | callable form name returnType params body =>
    simp only [Kind.fields, List.map_cons, List.map_nil] at hslots
    cases form <;> simp [Kind.label, Kind.fields, kindOf?, callable?, hslots]
  | macroDef form name params body =>
    simp only [Kind.fields, List.map_cons, List.map_nil] at hslots
    cases form <;> simp [Kind.label, Kind.fields, kindOf?, macroDef?, hslots]
  | binding form type name value =>
    simp only [Kind.fields, List.map_cons, List.map_nil] at hslots
    cases form <;> simp [Kind.label, Kind.fields, kindOf?, binding?, hslots]
  | literal form text =>
    simp only [Kind.fields, List.map_cons, List.map_nil] at hslots
    cases form <;> simp [Kind.label, Kind.fields, kindOf?, literal?, hslots]
  | _ =>
    simp only [Kind.fields, List.map_cons, List.map_nil] at hslots
    simp [Kind.label, Kind.fields, kindOf?, hslots]

/-- The word of a kind is split off, and its fields stay. -/
theorem tagged?_toJson (kind : Kind) :
    tagged? kind.toJson = some (kind.label, .record kind.fields) := by
  have hword := slot_record kind.nodup_members List.mem_cons_self
  simp only [List.map_cons] at hword
  rw [Kind.toJson, record, tagged?]
  simp only [List.map_cons, hword, Option.bind_eq_bind, Option.bind_some, required_some,
    text?_text]
  rw [List.filter_cons_of_neg (by simp), kind.filter_fields]
  rfl

/-! ## Soundness of written kinds -/

/-- Every natural number below the precision is a double. -/
theorem nearestDouble_eq {n : Nat} (h : n < 2 ^ 53) : Decimal.nearestDouble n = n := by
  have hunit : n.log2 - 52 = 0 := by
    have hlog : n.log2 ≤ 52 := by
      by_cases hn : n = 0
      · simp [hn]
      · exact Nat.le_of_lt_succ ((Nat.log2_lt hn).2 h)
    omega
  simp [Decimal.nearestDouble, hunit, Nat.mod_one]

/-- A word does not overflow, however it is scaled. -/
theorem isSound_natural {n : Nat} (h : n < UInt32.size) (layers : Nat) :
    isSound layers (.natural n) = true := by
  have hdigits : n.repr.length ≤ 20 :=
    Nat.repr_length n 20 (by omega) (Nat.lt_trans h (by decide))
  have hdropped : n.repr.length - 20 = 0 := by omega
  have hlead : Decimal.leading ⟨false, n, 0⟩ = (n, 0) := by
    have hfits : n < UInt64.size := Nat.lt_trans h (by decide)
    simp [Decimal.leading, hdropped, hfits]
  have hlimit : n < Decimal.doubleLimit := Nat.lt_trans h (by decide +kernel)
  have hn : Decimal.nearestDouble n = n := nearestDouble_eq (Nat.lt_trans h (by decide))
  have hone : Decimal.nearestDouble 1 = 1 := nearestDouble_eq (by decide)
  simp [isSound, Decimal.overflowsScaled, hlead, hn, hone, Decimal.maxPower, hlimit]

theorem membersAreSound_eq_all (layers : Nat) (members : List (Option String × Json)) :
    membersAreSound layers members =
      members.all fun member => member.1.isSome && isSound layers member.2 := by
  induction members with
  | nil => rfl
  | cons member members ih => simp [membersAreSound, ih]

theorem areSound_eq_all (layers : Nat) (items : List Json) :
    areSound layers items = items.all (isSound layers) := by
  induction items with
  | nil => rfl
  | cons item items ih => simp [areSound, ih]

theorem isSound_record (layers : Nat) (fields : List (String × Json)) :
    isSound (layers + 1) (record fields) = fields.all fun field => isSound layers field.2 := by
  simp [record, isSound, membersAreSound_eq_all, Function.comp_def]

theorem isSound_array (layers : Nat) (items : List Json) :
    isSound (layers + 1) (.array items) = items.all (isSound layers) := by
  simp [isSound, areSound_eq_all]

@[simp] theorem isSound_text (layers : Nat) (s : String) : isSound layers (text s) = true := rfl

@[simp] theorem isSound_id (layers : Nat) (id : NodeId) : isSound layers id.toJson = true :=
  isSound_natural id.index_lt layers

@[simp] theorem isSound_ids (layers : Nat) (ids : List NodeId) :
    isSound (layers + 1) (NodeId.listToJson ids) = true := by
  simp [NodeId.listToJson, isSound_array]

@[simp] theorem isSound_optionToJson (layers : Nat) (id : Option NodeId) :
    isSound layers (NodeId.optionToJson id) = true := by
  cases id with
  | none => rfl
  | some id => exact isSound_id layers id

@[simp] theorem isSound_span (layers : Nat) (s : Span) : isSound (layers + 1) s.toJson = true := by
  have hword : ∀ w : UInt32, isSound layers (.natural w.toNat) = true :=
    fun w => isSound_natural w.toNat_lt layers
  simp [Span.toJson, isSound_record, hword]

@[simp] theorem isSound_name (layers : Nat) (name : Name) :
    isSound (layers + 2) name.toJson = true := by
  simp [Name.toJson, isSound_record]

@[simp] theorem isSound_names (layers : Nat) (path : List Name) :
    isSound (layers + 3) (.array (path.map Name.toJson)) = true := by
  simp [isSound_array]

/-- A kind nests four layers at most. -/
theorem isSound_kind (layers : Nat) (kind : Kind) : isSound (layers + 4) kind.toJson = true := by
  rw [Kind.toJson, isSound_record]
  cases kind <;> simp [Kind.fields]

theorem kind?_toJson (kind : Kind) : kind? kind.toJson = some kind := by
  have hsound : isSound kindLayers kind.toJson = true := isSound_kind 120 kind
  simp [kind?, hsound, tagged?_toJson, kindOf?_label]

/-! ## Nodes and trees -/

theorem node?_toJson (node : Node) : node? node.toJson = some node := by
  have hslots := slots_record [("kind", node.kind.toJson),
    ("parent", NodeId.optionToJson node.parent), ("resolved", NodeId.optionToJson node.resolved),
    ("span", node.span.toJson)] (by simp)
  simp only [List.map_cons, List.map_nil] at hslots
  simp [node?, Node.toJson, hslots, kind?_toJson]

theorem parts?_toJson (t : Tree) : parts? t.toJson = some (t.nodes, t.root) := by
  have hslots := slots_record [("nodes", .array (t.nodes.toList.map Node.toJson)),
    ("root", t.root.toJson)] (by simp)
  simp only [List.map_cons, List.map_nil] at hslots
  simp [parts?, Tree.toJson, hslots, list?_map node?_toJson]

end Json

namespace Tree

/-- The document of a loaded tree is read as that tree. -/
theorem parse_document {nodes : Arena} {root : NodeId} {t : Tree}
    (h : Tree.ofParts nodes root = .ok t) : Tree.parse t.document = .ok t := by
  have hvalue : Json.parse? t.document = some t.toJson := Json.parse?_pretty t.toJson
  have hparts := Json.parts?_toJson t
  simp only [parse, hvalue, ofJson, hparts, ofParts_nodes_root h]
  rfl

/-- A class and a declaration in a package, with quotes, backslashes, control characters
and a character outside the basic plane in their names, and owners that are not theirs. -/
def quotedNames : Arena :=
  #[{ kind := .root [⟨1⟩], parent := some ⟨3⟩ },
    { kind := .package { text := "a\"b\\c", span := { file := 1, start := 8, stop := 13 } }
        [⟨2⟩, ⟨3⟩] },
    { kind := .typeDef .classType { text := "tab\tbell\x07line\n" } [] [], parent := some ⟨0⟩ },
    { kind := .binding .plain ⟨4⟩ { text := "é/😀" } (some ⟨5⟩), resolved := some ⟨2⟩,
      span := { file := 4294967295, start := 7, stop := 2 } },
    { kind := .typeRef [{ text := "a\"b\\c" }, { text := "" }] [], resolved := some ⟨2⟩ },
    { kind := .var { text := "é/😀" } (some ⟨3⟩) }]

/-- The names of the arena survive, and so do the owners that loading gave it. -/
theorem parse_document_quotedNames :
    ∃ t, Tree.ofParts quotedNames ⟨0⟩ = .ok t ∧ Tree.parse t.document = .ok t := by
  have hloads : (Tree.ofParts quotedNames ⟨0⟩).toOption.isSome = true := by decide
  obtain ⟨t, ht⟩ := Option.isSome_iff_exists.1 hloads
  have hok := eq_ok_of_toOption ht
  exact ⟨t, hok, parse_document hok⟩

end Tree

end Emitter
