import Mathlib.Data.List.Forall2
import Emitter.Proofs.Tree.Document

/-!
# Documents laid out differently

A tree is written with every field in a fixed order, and it is read from much more.
`Json.Relaid` says which other values count as the same document: the members of every
object may come in any order, the owner of a node may be anything that looks like one or
be missing, and a member that says no more than its default may be missing.

* An object that is laid out differently still gives a value for each of its fields, and
  that value is laid out differently, missing, or an owner (`slots_relaid`).
* `SlotRelaid` has a lemma for each way of reading a field, so that a reader of a record
  needs to know which fields it has and nothing about members.
* Spans, names and kinds are read as before (`span?_relaid`, `name?_relaid`,
  `kind?_relaid`).  The soundness that a kind needs does not depend on its layout
  (`isSound_relaid`), and neither does splitting off its word (`tagged?_relaid`).
* A node is read as before but for its owner (`node?_relaid`), so the parts of a tree are
  those of the tree with other owners (`parts?_relaid`).

Loading ignores owners (`Tree.ofParts_relink`), so all these documents load as one tree.
-/

namespace Emitter

namespace Json

/-! ## Other layouts of a value -/

/-- What may stand where an owner is expected. -/
inductive IsOwner : Json → Prop where
  | null : IsOwner .null
  | number {n : Nat} (h : n < UInt32.size) : IsOwner (.natural n)

/-- The fields that hold the number of a node or nothing, owners apart. -/
def nullableFields : List String :=
  ["resolved", "return_type", "body", "value", "expr", "alternative", "definition"]

/-- A member that may be left out. -/
inductive Omissible : String → Json → Prop where
  | parent (value : Json) : Omissible "parent" value
  | null {name : String} (h : name ∈ nullableFields) : Omissible name .null
  | parameters : Omissible "parameters" (.array [])
  | span : Omissible "span" (Span.toJson {})

/-- The members of an object after each of them was kept with a related value, given
another owner, or left out. -/
inductive Kept (R : Json → Json → Prop) :
    List (Option String × Json) → List (Option String × Json) → Prop where
  | nil : Kept R [] []
  | keep {name : Option String} {value other : Json} {members kept : List (Option String × Json)}
      (h : R value other) (hrest : Kept R members kept) :
      Kept R ((name, value) :: members) ((name, other) :: kept)
  | reown {value owner : Json} {members kept : List (Option String × Json)}
      (h : IsOwner owner) (hrest : Kept R members kept) :
      Kept R ((some "parent", value) :: members) ((some "parent", owner) :: kept)
  | leaveOut {name : String} {value : Json} {members kept : List (Option String × Json)}
      (h : Omissible name value) (hrest : Kept R members kept) :
      Kept R ((some name, value) :: members) kept

/-- The second value is the first one laid out differently. -/
inductive Relaid : Json → Json → Prop where
  | same (value : Json) : Relaid value value
  | array {items others : List Json} (h : List.Forall₂ Relaid items others) :
      Relaid (.array items) (.array others)
  | object {members kept others : List (Option String × Json)} (h : Kept Relaid members kept)
      (horder : kept.Perm others) : Relaid (.object members) (.object others)

theorem Kept.refl (members : List (Option String × Json)) : Kept Relaid members members := by
  induction members with
  | nil => exact .nil
  | cons member members ih => exact .keep (.same _) ih

theorem exists_of_relaid_array {items : List Json} {value : Json}
    (h : Relaid (.array items) value) :
    ∃ others, value = .array others ∧ List.Forall₂ Relaid items others := by
  cases h with
  | same => exact ⟨items, rfl, List.forall₂_same.2 fun _ _ => .same _⟩
  | array h => exact ⟨_, rfl, h⟩

theorem exists_of_relaid_object {members : List (Option String × Json)} {value : Json}
    (h : Relaid (.object members) value) :
    ∃ kept others, value = .object others ∧ Kept Relaid members kept ∧ kept.Perm others := by
  cases h with
  | same => exact ⟨members, members, rfl, Kept.refl members, .refl members⟩
  | object h horder => exact ⟨_, _, rfl, h, horder⟩

/-! ## Fields -/

/-- What is found where a field was written. -/
inductive SlotRelaid : String × Json → Option Json → Prop where
  | kept {name : String} {value other : Json} (h : Relaid value other) :
      SlotRelaid (name, value) (some other)
  | owner {value owner : Json} (h : IsOwner owner) : SlotRelaid ("parent", value) (some owner)
  | leftOut {name : String} {value : Json} (h : Omissible name value) :
      SlotRelaid (name, value) none

theorem slot_perm {members others : List (Option String × Json)} (h : members.Perm others)
    (name : String) : slot members name = slot others name := by
  have hfound := h.filter fun m => decide (m.1 = some name)
  unfold slot
  generalize members.filter (fun m => decide (m.1 = some name)) = first at hfound ⊢
  generalize others.filter (fun m => decide (m.1 = some name)) = second at hfound ⊢
  match first, second with
  | [], [] => rfl
  | [m], [n] => rw [List.singleton_perm_singleton.1 hfound]
  | _ :: _ :: _, _ :: _ :: _ => rfl
  | [], _ :: _ => simp at hfound
  | _ :: _, [] => simp at hfound
  | [_], _ :: _ :: _ => simp at hfound
  | _ :: _ :: _, [_] => simp at hfound

/-- No member is new. -/
theorem Kept.names {R : Json → Json → Prop} {members kept : List (Option String × Json)}
    (h : Kept R members kept) : (kept.map (·.1)).Sublist (members.map (·.1)) := by
  induction h with
  | nil => exact .slnil
  | keep _ _ ih => exact .cons_cons _ ih
  | reown _ _ ih => exact .cons_cons _ ih
  | leaveOut _ _ ih => exact .cons _ ih

theorem Kept.filter {R : Json → Json → Prop} {members kept : List (Option String × Json)}
    (h : Kept R members kept) (p : Option String → Bool) :
    Kept R (members.filter fun m => p m.1) (kept.filter fun m => p m.1) := by
  induction h with
  | nil => exact .nil
  | @keep name _ _ _ _ h _ ih =>
    cases hp : p name with
    | true => simpa [hp] using ih.keep h
    | false => simpa [hp] using ih
  | reown h _ ih =>
    cases hp : p (some "parent") with
    | true => simpa [hp] using ih.reown h
    | false => simpa [hp] using ih
  | @leaveOut name _ _ _ h _ ih =>
    cases hp : p (some name) with
    | true => simpa [hp] using ih.leaveOut h
    | false => simpa [hp] using ih

/-- A field that was written once is found at most once. -/
theorem slot_kept {fields : List (String × Json)} (hnodup : (fields.map (·.1)).Nodup)
    {kept : List (Option String × Json)}
    (h : Kept Relaid (fields.map fun (name, value) => (some name, value)) kept)
    {field : String × Json} (hfield : field ∈ fields) :
    ∃ found, slot kept field.1 = some found ∧ SlotRelaid field found := by
  induction fields generalizing kept with
  | nil => cases hfield
  | cons first rest ih =>
    obtain ⟨name, value⟩ := first
    obtain ⟨hnew, hrest⟩ := List.nodup_cons.1 hnodup
    have habsent : ∀ {kept : List (Option String × Json)},
        Kept Relaid (rest.map fun (name, value) => (some name, value)) kept →
          some name ∉ kept.map (·.1) := by
      intro kept hkept hmem
      exact hnew (by simpa using hkept.names.subset hmem)
    rcases List.mem_cons.1 hfield with rfl | hlater
    · cases h with
      | keep h hkept => exact ⟨_, slot_cons_self (habsent hkept) _, .kept h⟩
      | reown h hkept => exact ⟨_, slot_cons_self (habsent hkept) _, .owner h⟩
      | leaveOut h hkept => exact ⟨_, slot_of_notMem (habsent hkept), .leftOut h⟩
    · have hne : some name ≠ some field.1 := fun he =>
        hnew (List.mem_map.2 ⟨field, hlater, (Option.some.inj he).symm⟩)
      cases h with
      | keep _ hkept =>
        rw [slot_cons_of_ne hne]
        exact ih hrest hkept hlater
      | reown _ hkept =>
        rw [slot_cons_of_ne hne]
        exact ih hrest hkept hlater
      | leaveOut _ hkept => exact ih hrest hkept hlater

/-- Items that are read one by one, each with a result that is related to what it stands
for. -/
theorem exists_mapM_of_forall₂ {α β γ : Type} {read : β → Option γ} {R : α → γ → Prop}
    {items : List α} {others : List β}
    (h : List.Forall₂ (fun item other => ∃ result, read other = some result ∧ R item result)
      items others) :
    ∃ results, others.mapM read = some results ∧ List.Forall₂ R items results := by
  induction h with
  | nil => exact ⟨[], rfl, .nil⟩
  | cons hfirst _ ih =>
    obtain ⟨result, hread, hresult⟩ := hfirst
    obtain ⟨results, hreads, hresults⟩ := ih
    refine ⟨result :: results, ?_, .cons hresult hresults⟩
    rw [List.mapM_cons, hread, hreads]
    rfl

/-- A record that is laid out differently gives a value for each of its fields. -/
theorem slots_relaid {fields : List (String × Json)} (hnodup : (fields.map (·.1)).Nodup)
    {value : Json} (h : Relaid (record fields) value) :
    ∃ found, slots (fields.map (·.1)) value = some found ∧
      List.Forall₂ SlotRelaid fields found := by
  obtain ⟨kept, others, rfl, hkept, horder⟩ := exists_of_relaid_object h
  have hnamed : others.all (·.1.isSome) = true := by
    rw [← horder.all_eq, List.all_eq_true]
    intro member hm
    have hname := hkept.names.subset (List.mem_map_of_mem hm)
    rw [List.map_map] at hname
    obtain ⟨field, _, he⟩ := List.mem_map.1 hname
    rw [← he]
    rfl
  have hread : ∀ field ∈ fields,
      ∃ found, slot others field.1 = some found ∧ SlotRelaid field found := by
    intro field hf
    rw [← slot_perm horder]
    exact slot_kept hnodup hkept hf
  obtain ⟨found, hmapM, hfound⟩ := exists_mapM_of_forall₂ (List.forall₂_same.2 hread)
  refine ⟨found, ?_, hfound⟩
  rw [slots, if_pos hnamed, List.mapM_map]
  exact hmapM

/-! ## Values of nodes -/

theorem eq_of_relaid_natural {n : Nat} {value : Json} (h : Relaid (.natural n) value) :
    value = .natural n := by
  cases h
  rfl

theorem eq_of_relaid_text {s : String} {value : Json} (h : Relaid (text s) value) :
    value = text s := by
  cases h
  rfl

theorem eq_of_relaid_option {id : Option NodeId} {value : Json}
    (h : Relaid (NodeId.optionToJson id) value) : value = NodeId.optionToJson id := by
  cases id with
  | none =>
    cases h
    rfl
  | some id => exact eq_of_relaid_natural h

/-- A list whose items are laid out differently is read as before when each item is. -/
theorem list?_relaid {α : Type} {read : Json → Option α} {write : α → Json} {items : List α}
    {value : Json} (hread : ∀ a other, Relaid (write a) other → read other = some a)
    (h : Relaid (.array (items.map write)) value) : list? read value = some items := by
  obtain ⟨others, rfl, hothers⟩ := exists_of_relaid_array h
  rw [List.forall₂_map_left_iff] at hothers
  obtain ⟨results, hmapM, hresults⟩ := exists_mapM_of_forall₂ (R := Eq)
    (hothers.imp fun a other ho => ⟨a, hread a other ho, rfl⟩)
  rw [List.forall₂_eq_eq_eq] at hresults
  rw [list?, hmapM, hresults]

theorem id?_relaid {id : NodeId} {value : Json} (h : Relaid id.toJson value) :
    id? value = some id := by
  rw [eq_of_relaid_natural h]
  exact id?_toJson id

theorem ids?_relaid {ids : List NodeId} {value : Json} (h : Relaid (NodeId.listToJson ids) value) :
    ids? value = some ids :=
  list?_relaid (fun _ _ => id?_relaid) h

/-! ## Reading a field -/

/-- Owners apart, a member that may be left out has one of three values. -/
theorem eq_of_omissible {name : String} {value : Json} (h : Omissible name value)
    (hname : name ≠ "parent") :
    value = .null ∨ value = .array [] ∨ value = Span.toJson {} := by
  cases h with
  | parent => exact absurd rfl hname
  | null => exact .inl rfl
  | parameters => exact .inr (.inl rfl)
  | span => exact .inr (.inr rfl)

/-- The fields that may be missing although their value is not null. -/
@[simp] def defaultedFields : List String := ["parent", "parameters", "span"]

namespace SlotRelaid

variable {name : String} {value : Json} {found : Option Json}

/-- A field that has a value and no default is there. -/
theorem exists_kept (h : SlotRelaid (name, value) found)
    (hname : name ∉ defaultedFields) (hvalue : value ≠ .null) :
    ∃ other, found = some other ∧ Relaid value other := by
  cases h with
  | kept h => exact ⟨_, rfl, h⟩
  | owner => simp at hname
  | leftOut h => cases h <;> simp at hname hvalue

theorem required {α : Type} {read : Json → Option α} {a : α} (h : SlotRelaid (name, value) found)
    (hname : name ∉ defaultedFields) (hvalue : value ≠ .null)
    (hread : ∀ other, Relaid value other → read other = some a) :
    Json.required read found = some a := by
  obtain ⟨other, rfl, hother⟩ := h.exists_kept hname hvalue
  exact hread other hother

theorem id {id : NodeId} (h : SlotRelaid (name, id.toJson) found)
    (hname : name ∉ defaultedFields) : Json.required id? found = some id :=
  h.required hname nofun fun _ => id?_relaid

theorem ids {ids : List NodeId} (h : SlotRelaid (name, NodeId.listToJson ids) found)
    (hname : name ∉ defaultedFields) : Json.required ids? found = some ids :=
  h.required hname nofun fun _ => ids?_relaid

theorem text {s : String} (h : SlotRelaid (name, .text s) found)
    (hname : name ∉ defaultedFields) : Json.required text? found = some s :=
  h.required hname nofun fun other hother => by rw [eq_of_relaid_text hother, text?_text]

theorem word {w : UInt32} (h : SlotRelaid (name, .natural w.toNat) found)
    (hname : name ∉ defaultedFields) : Json.required word? found = some w :=
  h.required hname nofun fun other hother => by rw [eq_of_relaid_natural hother, word?_natural]

/-- A field that may be absent is there, or its value is the default. -/
theorem orElse {α : Type} {read : Json → Option α} {default a : α}
    (h : SlotRelaid (name, value) found) (hname : name ≠ "parent")
    (hread : ∀ other, Relaid value other → read other = some a)
    (hdefault : Omissible name value → a = default) : Json.orElse read default found = some a := by
  cases h with
  | kept h => exact hread _ h
  | owner => exact absurd rfl hname
  | leftOut h => rw [hdefault h, Json.orElse]

/-- The list of parameters may be left out when it is empty. -/
theorem parameters {ids : List NodeId}
    (h : SlotRelaid ("parameters", NodeId.listToJson ids) found) :
    Json.orElse ids? [] found = some ids := by
  refine h.orElse (by decide) (fun _ => ids?_relaid) fun hdefault => ?_
  cases ids with
  | nil => rfl
  | cons id ids =>
    obtain hvalue | hvalue | hvalue := eq_of_omissible hdefault (by decide) <;> cases hvalue

/-- A node number that is missing may be left out. -/
theorem option {id : Option NodeId} (h : SlotRelaid (name, NodeId.optionToJson id) found)
    (hname : name ≠ "parent") : optional id? found = some id := by
  cases h with
  | kept h => rw [eq_of_relaid_option h, optional_optionToJson]
  | owner => exact absurd rfl hname
  | leftOut h =>
    cases id with
    | none => rfl
    | some id =>
      obtain hvalue | hvalue | hvalue := eq_of_omissible h hname <;> cases hvalue

/-- An owner is read in any case. -/
theorem parent {id : Option NodeId} (h : SlotRelaid ("parent", NodeId.optionToJson id) found) :
    ∃ owner, optional id? found = some owner := by
  cases h with
  | kept h =>
    rw [eq_of_relaid_option h]
    exact ⟨id, optional_optionToJson id⟩
  | owner h =>
    cases h with
    | null => exact ⟨none, rfl⟩
    | @number n h =>
      have hword : word? (.natural n) = some (UInt32.ofNat n) := by simp [word?, h]
      refine ⟨some ⟨UInt32.ofNat n⟩, ?_⟩
      show (id? (.natural n)).map some = _
      rw [id?, hword]
      rfl
  | leftOut => exact ⟨none, rfl⟩

end SlotRelaid

theorem span?_relaid {s : Span} {value : Json} (h : Relaid s.toJson value) :
    span? value = some s := by
  obtain ⟨found, hslots, hfound⟩ := slots_relaid (by simp) h
  simp only [List.map_cons, List.map_nil] at hslots
  obtain _ | ⟨hfile, _ | ⟨hstart, _ | ⟨hstop, _ | _⟩⟩⟩ := hfound
  simp [span?, hslots, hfile.word, hstart.word, hstop.word]

/-- A span at the start of file 0 may be left out. -/
theorem SlotRelaid.span {s : Span} {found : Option Json} (h : SlotRelaid ("span", s.toJson) found) :
    Json.orElse span? {} found = some s := by
  refine h.orElse (by decide) (fun _ => span?_relaid) fun hdefault => ?_
  obtain hvalue | hvalue | hvalue := eq_of_omissible hdefault (by decide)
  · cases hvalue
  · cases hvalue
  · have hread : some s = some {} := by rw [← span?_toJson s, hvalue, span?_toJson]
    exact Option.some.inj hread

theorem name?_relaid {name : Name} {value : Json} (h : Relaid name.toJson value) :
    name? value = some name := by
  obtain ⟨found, hslots, hfound⟩ := slots_relaid (by simp) h
  simp only [List.map_cons, List.map_nil] at hslots
  obtain _ | ⟨htext, _ | ⟨hspan, _ | _⟩⟩ := hfound
  simp [name?, hslots, htext.text, hspan.span]

namespace SlotRelaid

variable {field : String} {found : Option Json}

theorem name {name : Name} (h : SlotRelaid (field, name.toJson) found)
    (hname : field ∉ defaultedFields) : Json.required name? found = some name :=
  h.required hname nofun fun _ => name?_relaid

theorem names {path : List Name} (h : SlotRelaid (field, .array (path.map Name.toJson)) found)
    (hname : field ∉ defaultedFields) :
    Json.required (list? name?) found = some path :=
  h.required hname nofun fun _ => list?_relaid fun _ _ => name?_relaid

end SlotRelaid

/-! ## Kinds -/

/-- The fields of a kind are read under its word, whatever their layout. -/
theorem kindOf?_relaid (kind : Kind) {body : Json} (h : Relaid (record kind.fields) body) :
    kindOf? kind.label body = some kind := by
  -- There is one slot for each field; every case names them before it reads them.
  obtain ⟨found, hslots, hfound⟩ := slots_relaid kind.nodup_fields h
  cases kind
  all_goals simp only [Kind.fields, List.map_cons, List.map_nil] at hslots
  case root definitions =>
    obtain _ | ⟨hdefinitions, _ | _⟩ := hfound
    simp [Kind.label, kindOf?, hslots, hdefinitions.ids]
  case package name definitions =>
    obtain _ | ⟨hname, _ | ⟨hdefinitions, _ | _⟩⟩ := hfound
    simp [Kind.label, kindOf?, hslots, hname.name, hdefinitions.ids]
  case typeDef form name parameters definitions =>
    obtain _ | ⟨hname, _ | ⟨hparameters, _ | ⟨hdefinitions, _ | _⟩⟩⟩ := hfound
    have hread : typeDef? form body = some (.typeDef form name parameters definitions) := by
      simp [typeDef?, hslots, hname.name, hparameters.parameters, hdefinitions.ids]
    cases form <;> exact hread
  case primitive name =>
    obtain _ | ⟨hname, _ | _⟩ := hfound
    simp [Kind.label, kindOf?, hslots, hname.name]
  case typeParam name =>
    obtain _ | ⟨hname, _ | _⟩ := hfound
    simp [Kind.label, kindOf?, hslots, hname.name]
  case callable form name returnType params block =>
    obtain _ | ⟨hname, _ | ⟨hreturnType, _ | ⟨hparams, _ | ⟨hblock, _ | _⟩⟩⟩⟩ := hfound
    have hread : callable? form body = some (.callable form name returnType params block) := by
      simp [callable?, hslots, hname.name, hreturnType.option, hparams.ids, hblock.option]
    cases form <;> exact hread
  case macroDef form name params expansion =>
    obtain _ | ⟨hname, _ | ⟨hparams, _ | ⟨hexpansion, _ | _⟩⟩⟩ := hfound
    have hread : macroDef? form body = some (.macroDef form name params expansion) := by
      simp [macroDef?, hslots, hname.name, hparams.ids, hexpansion.id]
    cases form <;> exact hread
  case binding form type name value =>
    obtain _ | ⟨htype, _ | ⟨hname, _ | ⟨hvalue, _ | _⟩⟩⟩ := hfound
    have hread : binding? form body = some (.binding form type name value) := by
      simp [binding?, hslots, htype.id, hname.name, hvalue.option]
    cases form <;> exact hread
  case block statements =>
    obtain _ | ⟨hstatements, _ | _⟩ := hfound
    simp [Kind.label, kindOf?, hslots, hstatements.ids]
  case localBinding declaration =>
    obtain _ | ⟨hdeclaration, _ | _⟩ := hfound
    simp [Kind.label, kindOf?, hslots, hdeclaration.id]
  case ret expr =>
    obtain _ | ⟨hexpr, _ | _⟩ := hfound
    simp [Kind.label, kindOf?, hslots, hexpr.option]
  case exprStmt expr =>
    obtain _ | ⟨hexpr, _ | _⟩ := hfound
    simp [Kind.label, kindOf?, hslots, hexpr.id]
  case assign target value =>
    obtain _ | ⟨htarget, _ | ⟨hvalue, _ | _⟩⟩ := hfound
    simp [Kind.label, kindOf?, hslots, htarget.id, hvalue.id]
  case cond predicate consequence alternative =>
    obtain _ | ⟨hpredicate, _ | ⟨hconsequence, _ | ⟨halternative, _ | _⟩⟩⟩ := hfound
    simp [Kind.label, kindOf?, hslots, hpredicate.id, hconsequence.id, halternative.option]
  case typeRef path parameters =>
    obtain _ | ⟨hpath, _ | ⟨hparameters, _ | _⟩⟩ := hfound
    simp [Kind.label, kindOf?, hslots, hpath.names, hparameters.parameters]
  case var name definition =>
    obtain _ | ⟨hname, _ | ⟨hdefinition, _ | _⟩⟩ := hfound
    simp [Kind.label, kindOf?, hslots, hname.name, hdefinition.option]
  case call callee args =>
    obtain _ | ⟨hcallee, _ | ⟨hargs, _ | _⟩⟩ := hfound
    simp [Kind.label, kindOf?, hslots, hcallee.id, hargs.ids]
  case attr receiver member =>
    obtain _ | ⟨hreceiver, _ | ⟨hmember, _ | _⟩⟩ := hfound
    simp [Kind.label, kindOf?, hslots, hreceiver.id, hmember.name]
  case literal form text =>
    obtain _ | ⟨htext, _ | _⟩ := hfound
    have hread : literal? form body = some (.literal form text) := by
      simp [literal?, hslots, htext.text]
    cases form <;> exact hread
  case list elements =>
    obtain _ | ⟨helements, _ | _⟩ := hfound
    simp [Kind.label, kindOf?, hslots, helements.ids]
  case native parts =>
    obtain _ | ⟨hparts, _ | _⟩ := hfound
    simp [Kind.label, kindOf?, hslots, hparts.ids]

/-- The word of a kind is split off wherever it stands. -/
theorem tagged?_relaid (kind : Kind) {value : Json} (h : Relaid kind.toJson value) :
    ∃ body, tagged? value = some (kind.label, body) ∧ Relaid (record kind.fields) body := by
  obtain ⟨kept, others, rfl, hkept, horder⟩ := exists_of_relaid_object h
  obtain ⟨found, hslot, hfound⟩ := slot_kept kind.nodup_members hkept List.mem_cons_self
  rw [slot_perm horder] at hslot
  have hword : required text? found = some kind.label := hfound.text (by decide)
  refine ⟨.object (others.filter fun m => decide (m.1 ≠ some "kind")), ?_, ?_⟩
  · simp [tagged?, hslot, hword]
  · have hrest := hkept.filter fun name => decide (name ≠ some "kind")
    rw [List.map_cons, List.filter_cons_of_neg (by simp), kind.filter_fields] at hrest
    exact .object hrest (horder.filter _)

/-- What makes items sound makes them sound in another layout. -/
theorem areSound_relaid {layers : Nat}
    (hsound : ∀ {value other}, Relaid value other → isSound layers value = true →
      isSound layers other = true)
    {items others : List Json} (h : List.Forall₂ Relaid items others)
    (hitems : areSound layers items = true) : areSound layers others = true := by
  induction h with
  | nil => rfl
  | cons hfirst _ ih =>
    simp only [areSound, Bool.and_eq_true] at hitems ⊢
    exact ⟨hsound hfirst hitems.1, ih hitems.2⟩

theorem isSound_owner {layers : Nat} {owner : Json} (h : IsOwner owner) :
    isSound layers owner = true := by
  cases h with
  | null => rfl
  | number h => exact isSound_natural h layers

theorem membersAreSound_kept {layers : Nat}
    (hsound : ∀ {value other}, Relaid value other → isSound layers value = true →
      isSound layers other = true)
    {members kept : List (Option String × Json)} (h : Kept Relaid members kept)
    (hmembers : membersAreSound layers members = true) : membersAreSound layers kept = true := by
  induction h with
  | nil => rfl
  | keep h _ ih =>
    simp only [membersAreSound, Bool.and_eq_true] at hmembers ⊢
    obtain ⟨⟨hname, hvalue⟩, hrest⟩ := hmembers
    exact ⟨⟨hname, hsound h hvalue⟩, ih hrest⟩
  | reown h _ ih =>
    simp only [membersAreSound, Bool.and_eq_true] at hmembers ⊢
    exact ⟨⟨rfl, isSound_owner h⟩, ih hmembers.2⟩
  | leaveOut _ _ ih =>
    simp only [membersAreSound, Bool.and_eq_true] at hmembers
    exact ih hmembers.2

/-- Another layout of a sound value is sound. -/
theorem isSound_relaid {layers : Nat} {value other : Json} (h : Relaid value other)
    (hsound : isSound layers value = true) : isSound layers other = true := by
  -- The layers bound how deep the two values go, so the induction is on them.
  induction layers generalizing value other with
  | zero =>
    cases h with
    | same => exact hsound
    | array => simp [isSound] at hsound
    | object => simp [isSound] at hsound
  | succ layers ih =>
    cases h with
    | same => exact hsound
    | array h =>
      simp only [isSound, Nat.add_sub_cancel, Bool.and_eq_true] at hsound ⊢
      exact ⟨hsound.1, areSound_relaid ih h hsound.2⟩
    | object h horder =>
      simp only [isSound, Nat.add_sub_cancel, Bool.and_eq_true] at hsound ⊢
      have hkept := membersAreSound_kept ih h hsound.2
      rw [membersAreSound_eq_all] at hkept ⊢
      exact ⟨hsound.1, horder.all_eq ▸ hkept⟩

theorem kind?_relaid (kind : Kind) {value : Json} (h : Relaid kind.toJson value) :
    kind? value = some kind := by
  have hsound : isSound kindLayers value = true := isSound_relaid h (isSound_kind 120 kind)
  obtain ⟨body, htagged, hbody⟩ := tagged?_relaid kind h
  simp [kind?, hsound, htagged, kindOf?_relaid kind hbody]

/-! ## Nodes and trees -/

/-- A node is read as before, with an owner that does not count. -/
theorem node?_relaid (node : Node) {value : Json} (h : Relaid node.toJson value) :
    ∃ owner, node? value = some { node with parent := owner } := by
  obtain ⟨found, hslots, hfound⟩ := slots_relaid (by simp) h
  simp only [List.map_cons, List.map_nil] at hslots
  obtain _ | ⟨hkind, _ | ⟨hparent, _ | ⟨hresolved, _ | ⟨hspan, _ | _⟩⟩⟩⟩ := hfound
  have hread := hkind.required (by decide) nofun fun _ => kind?_relaid node.kind
  obtain ⟨owner, howner⟩ := hparent.parent
  refine ⟨owner, ?_⟩
  simp [node?, hslots, hread, howner, hresolved.option, hspan.span]

/-- Nodes that differ in their owners are those of the arena with other owners. -/
theorem exists_eq_relink {nodes : Arena} {others : List Node}
    (h : List.Forall₂ (fun node other => ∃ owner, other = { node with parent := owner })
      nodes.toList others) :
    ∃ owners, others.toArray = nodes.relink owners := by
  refine ⟨(others.map (·.parent)).toArray, Array.ext ?_ fun i hi hin => ?_⟩
  · simpa using h.length_eq.symm
  · have hnode : i < nodes.size := by simpa using hin
    have hlt : i < others.length := by simpa using hi
    obtain ⟨owner, howner⟩ := h.get hnode hlt
    have hother : others[i] = { nodes[i] with parent := owner } := howner
    simp [Arena.relink, List.getElem?_eq_getElem hlt, hother]

theorem parts?_relaid (t : Tree) {value : Json} (h : Relaid t.toJson value) :
    ∃ owners, parts? value = some (t.nodes.relink owners, t.root) := by
  obtain ⟨found, hslots, hfound⟩ := slots_relaid (by simp) h
  simp only [List.map_cons, List.map_nil] at hslots
  obtain _ | ⟨hnodes, _ | ⟨hroot, _ | _⟩⟩ := hfound
  obtain ⟨_, rfl, hlist⟩ := hnodes.exists_kept (by decide) nofun
  obtain ⟨items, rfl, hitems⟩ := exists_of_relaid_array hlist
  rw [List.forall₂_map_left_iff] at hitems
  have hreads := hitems.imp fun node item hitem => node?_relaid node hitem
  obtain ⟨others, hread, hothers⟩ := exists_mapM_of_forall₂
    (R := fun node other => ∃ owner, other = { node with parent := owner })
    (hreads.imp fun node item ⟨owner, hitem⟩ => ⟨_, hitem, owner, rfl⟩)
  obtain ⟨owners, howners⟩ := exists_eq_relink hothers
  refine ⟨owners, ?_⟩
  simp [parts?, hslots, list?, hread, howners, hroot.id]

end Json

namespace Tree

/-- Every layout of the document of a loaded tree is read as that tree. -/
theorem parse_of_relaid {nodes : Arena} {root : NodeId} {t : Tree}
    (h : Tree.ofParts nodes root = .ok t) {value : Json} (hvalue : Json.Relaid t.toJson value) :
    Tree.parse value.pretty = .ok t ∧
      ∀ text, Json.parse? text = some value → Tree.parse text = .ok t := by
  obtain ⟨owners, hparts⟩ := Json.parts?_relaid t hvalue
  have hload := ofParts_relink (ofParts_nodes_root h) owners
  have hall : ∀ text, Json.parse? text = some value → Tree.parse text = .ok t := by
    intro text htext
    simp only [parse, htext, ofJson, hparts, hload]
    rfl
  exact ⟨hall _ (Json.parse?_pretty value), hall⟩

/-- An empty class, as loading leaves it. -/
def emptyClass : Tree where
  nodes :=
    #[{ kind := .typeDef .classType { text := "C" } [] [], parent := some ⟨1⟩ },
      { kind := .root [⟨0⟩] }]
  root := ⟨1⟩
  wellFormed := wellFormed_of_ofParts (by decide)

/-- The class with the words of its kinds last, an owner outside the arena, and without
all that may be left out. -/
def sparseClass : Json :=
  .record [("root", .natural 1), ("nodes", .array
    [.record [("parent", .natural 7), ("kind", .record
      [("definitions", .array []), ("name", .record [("text", .text "C")]),
        ("kind", .text "Class")])],
      .record [("kind", .record [("definitions", .array [.natural 0]), ("kind", .text "Root")])]])]

/-- The sparse class is a layout of the written one and loads as it. -/
theorem parse_of_relaid_sparseClass :
    Tree.ofParts emptyClass.nodes emptyClass.root = .ok emptyClass ∧
      Json.Relaid emptyClass.toJson sparseClass ∧
      Tree.parse sparseClass.pretty = .ok emptyClass := by
  have hload : Tree.ofParts emptyClass.nodes emptyClass.root = .ok emptyClass := rfl
  have hname : Json.Relaid (Name.toJson { text := "C" }) (.record [("text", .text "C")]) :=
    .object (.keep (.same _) (.leaveOut .span .nil)) (.refl _)
  have hclass : Json.Relaid (Kind.typeDef .classType { text := "C" } [] []).toJson
      (.record [("definitions", .array []), ("name", .record [("text", .text "C")]),
        ("kind", .text "Class")]) :=
    .object (.keep (.same _) (.keep hname (.leaveOut .parameters (.keep (.same _) .nil))))
      (List.reverse_perm _).symm
  have hroot : Json.Relaid (Kind.root [⟨0⟩]).toJson
      (.record [("definitions", .array [.natural 0]), ("kind", .text "Root")]) :=
    .object (.keep (.same _) (.keep (.same _) .nil)) (.swap _ _ _)
  have hnull : Json.Omissible "resolved" .null := .null (by decide)
  have hlayout : Json.Relaid emptyClass.toJson sparseClass := by
    refine .object (.keep (.array (.cons ?_ (.cons ?_ .nil))) (.keep (.same _) .nil)) (.swap _ _ _)
    · exact .object (.keep hclass (.reown (.number (by decide)) (.leaveOut hnull
        (.leaveOut .span .nil)))) (.swap _ _ _)
    · exact .object (.keep hroot (.leaveOut (.parent _) (.leaveOut hnull
        (.leaveOut .span .nil)))) (.refl _)
  exact ⟨hload, hlayout, (parse_of_relaid hload hlayout).1⟩

end Tree

end Emitter
