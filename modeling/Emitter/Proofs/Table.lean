import Mathlib.Data.List.Forall2
import Mathlib.Data.List.Induction
import Mathlib.Data.List.Nodup
import Emitter.Table

/-!
# What a table holds

A table is read through `Table.find?`.  One insertion changes what is found
under the keys that compare equal to the new one and nothing else
(`find?_insert`), so a table filled from a list holds under each key the last
value that was put there (`find?_ofList`), and a table that is extended by another
has the entries of both, those of the other first (`find?_extend`).

The keys themselves go by the first insertion: a later entry with an equal key
takes over the value and not the key (`exists_first_of_mem_keys`).  What equal keys
have in common holds of all keys when it holds of all that was inserted
(`forall_keys_ofList`).  Where a key goes does not depend on values, so lists with the same
keys fill tables with the same keys (`alike_ofList`).
-/

namespace Emitter

namespace Table

variable {κ ν : Type} [Ord κ]

/-! ## Looking up -/

@[simp] theorem find?_empty (key : κ) : (empty : Table κ ν).find? key = none := rfl

theorem findEntry_eq_none_iff {key : κ} {entries : List (κ × ν)} :
    findEntry key entries = none ↔ ∀ e ∈ entries, compare key e.1 ≠ .eq := by
  induction entries with
  | nil => simp [findEntry]
  | cons head rest ih =>
    obtain ⟨k, v⟩ := head
    by_cases hk : compare key k = .eq
    · simp [findEntry, hk]
    · simp [findEntry, hk, ih]

theorem find?_eq_none_iff {t : Table κ ν} {key : κ} :
    t.find? key = none ↔ ∀ k ∈ t.keys, compare key k ≠ .eq := by
  simp only [find?, findEntry_eq_none_iff, keys, List.forall_mem_map]

/-- What is found is the value of an entry. -/
theorem exists_mem_of_find? {t : Table κ ν} {key : κ} {value : ν} (h : t.find? key = some value) :
    ∃ e ∈ t.entries, compare key e.1 = .eq ∧ e.2 = value := by
  unfold find? at h
  generalize t.entries = entries at h ⊢
  induction entries with
  | nil => cases h
  | cons head rest ih =>
    obtain ⟨k, v⟩ := head
    by_cases hk : compare key k = .eq
    · rw [findEntry, if_pos hk, Option.some.injEq] at h
      exact ⟨(k, v), List.mem_cons_self, hk, h⟩
    · rw [findEntry, if_neg hk] at h
      obtain ⟨e, he, hfound⟩ := ih h
      exact ⟨e, List.mem_cons_of_mem _ he, hfound⟩

variable [Std.TransOrd κ]

theorem findEntry_of_mem {entries : List (κ × ν)} {e : κ × ν}
    (hasc : entries.Pairwise fun a b => compare a.1 b.1 = .lt) (h : e ∈ entries) :
    findEntry e.1 entries = some e.2 := by
  induction entries with
  | nil => cases h
  | cons head rest ih =>
    obtain ⟨hhead, hrest⟩ := List.pairwise_cons.1 hasc
    rcases List.mem_cons.1 h with rfl | h
    · simp [findEntry]
    · have hgt : compare e.1 head.1 = .gt := Std.OrientedCmp.gt_iff_lt.2 (hhead e h)
      simp only [findEntry, hgt]
      exact ih hrest h

/-- The value of an entry is what is found under its key. -/
theorem find?_of_mem {t : Table κ ν} {e : κ × ν} (h : e ∈ t.entries) : t.find? e.1 = some e.2 :=
  findEntry_of_mem t.ascending h

/-! ## One insertion -/

theorem findEntry_insertEntry (key new : κ) (value : ν) (entries : List (κ × ν)) :
    findEntry key (insertEntry new value entries) =
      if compare key new = .eq then some value else findEntry key entries := by
  induction entries with
  | nil => simp [insertEntry, findEntry]
  | cons head rest ih =>
    obtain ⟨k, v⟩ := head
    simp only [insertEntry]
    split
    · simp [findEntry]
    · next heq =>
      -- The two keys are equal, so whatever equals one equals the other.
      have hsame : compare key k = compare key new := (Std.TransCmp.congr_right heq).symm
      simp only [findEntry, hsame]
      split <;> rfl
    · next hgt =>
      simp only [findEntry, ih]
      by_cases hnew : compare key new = .eq
      · have hother : compare key k = .gt := by rw [Std.TransCmp.congr_left hnew, hgt]
        simp [hnew, hother]
      · simp [hnew]

/-- An insertion shows under the keys equal to the new one, and nowhere else. -/
theorem find?_insert (t : Table κ ν) (key new : κ) (value : ν) :
    (t.insert new value).find? key = if compare key new = .eq then some value else t.find? key :=
  findEntry_insertEntry key new value t.entries

theorem mem_keys_insertEntry {key new : κ} {value : ν} {entries : List (κ × ν)}
    (hasc : entries.Pairwise fun a b => compare a.1 b.1 = .lt)
    (h : key ∈ (insertEntry new value entries).map (·.1)) :
    key ∈ entries.map (·.1) ∨ key = new ∧ findEntry new entries = none := by
  induction entries with
  | nil =>
    right
    simpa [insertEntry, findEntry] using h
  | cons head rest ih =>
    obtain ⟨k, v⟩ := head
    obtain ⟨hhead, hrest⟩ := List.pairwise_cons.1 hasc
    simp only [insertEntry] at h
    split at h
    · next hlt =>
      rcases List.mem_cons.1 h with hnew | h
      · -- Everything in the list comes after the new key.
        refine .inr ⟨hnew, findEntry_eq_none_iff.2 fun e he => ?_⟩
        rcases List.mem_cons.1 he with rfl | he
        · simp [hlt]
        · simp [Std.TransCmp.lt_trans hlt (hhead e he)]
      · exact .inl h
    · left
      simpa using h
    · next hgt =>
      rcases List.mem_cons.1 h with hk | h
      · exact .inl (List.mem_cons.2 (.inl hk))
      · rcases ih hrest h with hold | ⟨hkey, hnone⟩
        · exact .inl (List.mem_cons_of_mem _ hold)
        · exact .inr ⟨hkey, by simpa [findEntry, hgt] using hnone⟩

/-- An insertion brings no key but its own, and that only if no equal one is there. -/
theorem mem_keys_insert {t : Table κ ν} {key new : κ} {value : ν}
    (h : key ∈ (t.insert new value).keys) :
    key ∈ t.keys ∨ key = new ∧ t.find? new = none :=
  mem_keys_insertEntry t.ascending h

/-- What equal keys have in common holds of the keys after an insertion when it held before
and holds of the new key. -/
theorem forall_keys_insert {P : κ → Prop} (hP : ∀ {a b}, compare a b = .eq → P b → P a)
    {t : Table κ ν} {new : κ} {value : ν} :
    (∀ key ∈ (t.insert new value).keys, P key) ↔ P new ∧ ∀ key ∈ t.keys, P key := by
  have hfound : ∀ key, (t.insert new value).find? key ≠ none →
      ∃ k ∈ (t.insert new value).keys, compare key k = .eq := by
    intro key hkey
    by_contra hnone
    exact hkey (find?_eq_none_iff.2 fun k hk heq => hnone ⟨k, hk, heq⟩)
  constructor
  · intro h
    refine ⟨?_, fun key hkey => ?_⟩
    · obtain ⟨k, hk, heq⟩ := hfound new (by simp [find?_insert])
      exact hP heq (h k hk)
    · obtain ⟨e, he, rfl⟩ := List.mem_map.1 hkey
      obtain ⟨k, hk, heq⟩ := hfound e.1 (by
        rw [find?_insert, find?_of_mem he]
        split <;> simp)
      exact hP heq (h k hk)
  · rintro ⟨hnew, hold⟩ key hkey
    rcases mem_keys_insert hkey with hkey | ⟨rfl, _⟩
    · exact hold key hkey
    · exact hnew

theorem nodup_keys (t : Table κ ν) : t.keys.Nodup :=
  List.pairwise_map.2 (t.ascending.imp fun {a b} hlt heq => by
    rw [heq, Std.ReflOrd.compare_self] at hlt
    cases hlt)

/-- The entries are what is found, when only equal keys compare equal. -/
theorem mem_entries_iff [Std.LawfulEqOrd κ] {t : Table κ ν} {e : κ × ν} :
    e ∈ t.entries ↔ t.find? e.1 = some e.2 := by
  refine ⟨find?_of_mem, fun hfind => ?_⟩
  obtain ⟨other, hother, hkey, hvalue⟩ := exists_mem_of_find? hfind
  have hsame : other = e := Prod.ext (Std.LawfulEqOrd.eq_of_compare hkey).symm hvalue
  exact hsame ▸ hother

/-- Tables in which the same is found are the same, when only equal keys compare equal. -/
theorem ext_find? [Std.LawfulEqOrd κ] {s t : Table κ ν} (h : ∀ key, s.find? key = t.find? key) :
    s = t := by
  have hnodup : ∀ t : Table κ ν, t.entries.Nodup := fun t => List.Nodup.of_map _ t.nodup_keys
  have hperm : s.entries.Perm t.entries :=
    (List.perm_ext_iff_of_nodup (hnodup s) (hnodup t)).2 fun e => by
      rw [mem_entries_iff, mem_entries_iff, h]
  refine ext (hperm.eq_of_pairwise ?_ s.ascending t.ascending)
  intro a b _ _ hab hba
  rw [Std.OrientedOrd.eq_swap, hba] at hab
  cases hab

/-! ## Tables filled from a list -/

theorem ofList_append_singleton (entries : List (κ × ν)) (e : κ × ν) :
    ofList (entries ++ [e]) = (ofList entries).insert e.1 e.2 := by
  simp [ofList, insertAll]

theorem insertEntry_of_lt {key : κ} {value : ν} {entries : List (κ × ν)}
    (h : ∀ e ∈ entries, compare e.1 key = .lt) :
    insertEntry key value entries = entries ++ [(key, value)] := by
  induction entries with
  | nil => rfl
  | cons head rest ih =>
    obtain ⟨hhead, hrest⟩ := List.forall_mem_cons.1 h
    have hgt : compare key head.1 = .gt := Std.OrientedCmp.gt_iff_lt.2 hhead
    simp only [insertEntry, hgt, ih hrest, List.cons_append]

/-- Entries that are in order already are kept as they are. -/
theorem entries_ofList {entries : List (κ × ν)}
    (h : entries.Pairwise fun a b => compare a.1 b.1 = .lt) :
    (ofList entries).entries = entries := by
  induction entries using List.reverseRecOn with
  | nil => rfl
  | append_singleton entries e ih =>
    obtain ⟨hentries, _, hlast⟩ := List.pairwise_append.1 h
    rw [ofList_append_singleton]
    show insertEntry e.1 e.2 (ofList entries).entries = _
    rw [ih hentries]
    exact insertEntry_of_lt fun other hother => hlast other hother e List.mem_cons_self

theorem ofList_entries (t : Table κ ν) : ofList t.entries = t := ext (entries_ofList t.ascending)

/-- Further entries are looked up first, and then the table that they were put into. -/
theorem find?_insertAll (t : Table κ ν) (entries : List (κ × ν)) (key : κ) :
    (t.insertAll entries).find? key = ((ofList entries).find? key).or (t.find? key) := by
  induction entries using List.reverseRecOn with
  | nil => rfl
  | append_singleton entries e ih =>
    have hlast : t.insertAll (entries ++ [e]) = (t.insertAll entries).insert e.1 e.2 := by
      simp [insertAll]
    rw [hlast, ofList_append_singleton, find?_insert, find?_insert, ih]
    split <;> rfl

/-- In an extended table the entries of the second table win. -/
theorem find?_extend (s t : Table κ ν) (key : κ) :
    (s.extend t).find? key = (t.find? key).or (s.find? key) := by
  rw [extend, find?_insertAll, ofList_entries]

theorem extend_assoc [Std.LawfulEqOrd κ] (s t u : Table κ ν) :
    (s.extend t).extend u = s.extend (t.extend u) := by
  refine ext_find? fun key => ?_
  simp only [find?_extend, Option.or_assoc]

/-- An extended table has no entries but those of the two tables. -/
theorem mem_entries_extend [Std.LawfulEqOrd κ] {s t : Table κ ν} {e : κ × ν}
    (h : e ∈ (s.extend t).entries) : e ∈ s.entries ∨ e ∈ t.entries := by
  have hfind := find?_of_mem h
  rw [find?_extend, Option.or_eq_some_iff] at hfind
  rcases hfind with hsecond | ⟨_, hfirst⟩
  · exact .inr (mem_entries_iff.2 hsecond)
  · exact .inl (mem_entries_iff.2 hfirst)

/-- A table stays as it is exactly when it has the entries of the other one already. -/
theorem extend_eq_left_iff [Std.LawfulEqOrd κ] {s t : Table κ ν} :
    s.extend t = s ↔ ∀ e ∈ t.entries, e ∈ s.entries := by
  constructor
  · intro h e he
    rw [mem_entries_iff, ← h, find?_extend, find?_of_mem he, Option.some_or]
  · intro h
    refine ext_find? fun key => ?_
    rw [find?_extend]
    cases hfind : t.find? key with
    | none => exact Option.none_or
    | some value =>
      have hmem : (key, value) ∈ s.entries := h _ (mem_entries_iff.2 hfind)
      rw [find?_of_mem hmem, Option.some_or]

/-- Under each key stands the last value that was put there. -/
theorem find?_ofList (entries : List (κ × ν)) (key : κ) :
    (ofList entries).find? key =
      (entries.reverse.find? fun e => compare key e.1 == .eq).map (·.2) := by
  induction entries using List.reverseRecOn with
  | nil => rfl
  | append_singleton entries e ih =>
    rw [ofList_append_singleton, find?_insert, ih]
    by_cases he : compare key e.1 = .eq
    · simp [he]
    · simp [he]

/-- The value of an entry is that of the last member of the list with an equal
key. -/
theorem exists_last_of_mem_ofList {entries : List (κ × ν)} {e : κ × ν}
    (h : e ∈ (ofList entries).entries) :
    ∃ before last after, entries = before ++ last :: after ∧ compare e.1 last.1 = .eq ∧
      last.2 = e.2 ∧ ∀ later ∈ after, compare e.1 later.1 ≠ .eq := by
  have hfind := find?_of_mem h
  rw [find?_ofList] at hfind
  obtain ⟨last, hlast, hvalue⟩ := Option.map_eq_some_iff.1 hfind
  obtain ⟨hkey, after, before, hsplit, hafter⟩ := List.find?_eq_some_iff_append.1 hlast
  refine ⟨before.reverse, last, after.reverse, ?_, by simpa using hkey, hvalue, ?_⟩
  · rw [← List.reverse_reverse entries, hsplit]
    simp
  · intro later hlater
    simpa using hafter later (List.mem_reverse.1 hlater)

/-- Every member of the list has an equal key in the table. -/
theorem exists_key_of_mem {entries : List (κ × ν)} {e : κ × ν} (h : e ∈ entries) :
    ∃ key ∈ (ofList entries).keys, compare e.1 key = .eq := by
  by_contra hnone
  have hfind : (ofList entries).find? e.1 = none :=
    find?_eq_none_iff.2 fun key hkey heq => hnone ⟨key, hkey, heq⟩
  rw [find?_ofList, Option.map_eq_none_iff, List.find?_eq_none] at hfind
  exact hfind e (List.mem_reverse.2 h) (by simp)

theorem forall_keys_ofList {P : κ → Prop} (hP : ∀ {a b}, compare a b = .eq → P b → P a)
    {entries : List (κ × ν)} :
    (∀ key ∈ (ofList entries).keys, P key) ↔ ∀ e ∈ entries, P e.1 := by
  induction entries using List.reverseRecOn with
  | nil => simp [ofList, insertAll, empty, keys]
  | append_singleton entries e ih =>
    rw [ofList_append_singleton, forall_keys_insert hP, ih, List.forall_mem_append,
      List.forall_mem_singleton, and_comm]

/-- Every key is that of the first member of the list with an equal key. -/
theorem exists_first_of_mem_keys {entries : List (κ × ν)} {key : κ}
    (h : key ∈ (ofList entries).keys) :
    ∃ before first after, entries = before ++ first :: after ∧ first.1 = key ∧
      ∀ earlier ∈ before, compare key earlier.1 ≠ .eq := by
  induction entries using List.reverseRecOn with
  | nil => cases h
  | append_singleton entries e ih =>
    rw [ofList_append_singleton] at h
    rcases mem_keys_insert h with hold | ⟨hkey, hnone⟩
    · obtain ⟨before, first, after, hsplit, hfirst⟩ := ih hold
      exact ⟨before, first, after ++ [e], by simp [hsplit], hfirst⟩
    · refine ⟨entries, e, [], rfl, hkey.symm, fun earlier hearlier heq => ?_⟩
      obtain ⟨k, hk, hek⟩ := exists_key_of_mem hearlier
      rw [hkey] at heq
      exact find?_eq_none_iff.1 hnone k hk (Std.TransCmp.eq_trans heq hek)

end Table

/-! ## Tables with the same keys -/

namespace Table

variable {κ μ ν : Type} [Ord κ] {R : μ → ν → Prop}

/-- Entries with the same key and related values. -/
def EntryAlike (R : μ → ν → Prop) (first : κ × μ) (second : κ × ν) : Prop :=
  first.1 = second.1 ∧ R first.2 second.2

theorem alike_insertEntry {key : κ} {value : μ} {value' : ν} {entries : List (κ × μ)}
    {entries' : List (κ × ν)} (hvalue : R value value')
    (h : List.Forall₂ (EntryAlike R) entries entries') :
    List.Forall₂ (EntryAlike R) (insertEntry key value entries)
      (insertEntry key value' entries') := by
  induction h with
  | nil => exact .cons ⟨rfl, hvalue⟩ .nil
  | @cons first second rest rest' hfirst hrest ih =>
    obtain ⟨k, v⟩ := first
    obtain ⟨k', v'⟩ := second
    obtain rfl : k = k' := hfirst.1
    simp only [insertEntry]
    split
    · exact .cons ⟨rfl, hvalue⟩ (.cons hfirst hrest)
    · exact .cons ⟨rfl, hvalue⟩ hrest
    · exact .cons hfirst ih

/-- Tables that are filled alike have the same keys and related values. -/
theorem alike_ofList [Std.TransOrd κ] {entries : List (κ × μ)} {entries' : List (κ × ν)}
    (h : List.Forall₂ (EntryAlike R) entries entries') :
    List.Forall₂ (EntryAlike R) (ofList entries).entries (ofList entries').entries := by
  have hall : ∀ (table : Table κ μ) (table' : Table κ ν),
      List.Forall₂ (EntryAlike R) table.entries table'.entries →
      List.Forall₂ (EntryAlike R) (table.insertAll entries).entries
        (table'.insertAll entries').entries := by
    induction h with
    | nil => exact fun _ _ htables => htables
    | @cons first second _ _ hfirst _ ih =>
      intro table table' htables
      refine ih (table.insert first.1 first.2) (table'.insert second.1 second.2) ?_
      rw [hfirst.1]
      exact alike_insertEntry hfirst.2 htables
  exact hall empty empty .nil

theorem keys_eq_of_alike {table : Table κ μ} {table' : Table κ ν}
    (h : List.Forall₂ (EntryAlike R) table.entries table'.entries) : table.keys = table'.keys := by
  have hkeys : List.Forall₂ (· = ·) table.keys table'.keys := by
    rw [keys, keys, List.forall₂_map_left_iff, List.forall₂_map_right_iff]
    exact h.imp fun _ _ hentry => hentry.1
  rwa [List.forall₂_eq_eq_eq] at hkeys

theorem values_of_alike {table : Table κ μ} {table' : Table κ ν}
    (h : List.Forall₂ (EntryAlike R) table.entries table'.entries) :
    List.Forall₂ R table.values table'.values := by
  rw [values, values, List.forall₂_map_left_iff, List.forall₂_map_right_iff]
  exact h.imp fun _ _ hentry => hentry.2

end Table

end Emitter
