/-!
# Ordered tables

A table is a list of entries in strictly ascending key order.  Two keys count
as the same when they compare equal; for text that is equality, for paths it
is equality of components.

* `Table.insert` keeps the key that is already there and replaces its value;
* `Table.find?` looks a key up;
* `Table.extend` inserts all entries of another table.

The order of the entries is part of the type, so a table prints the same way
however it was filled.
-/

namespace Emitter

/-- Entries in strictly ascending key order. -/
structure Table (κ ν : Type) [Ord κ] where
  entries : List (κ × ν)
  ascending : entries.Pairwise fun a b => compare a.1 b.1 = .lt

namespace Table

variable {κ ν : Type} [Ord κ]

/-- A table is determined by its entries. -/
@[ext] theorem ext {s t : Table κ ν} (h : s.entries = t.entries) : s = t := by
  cases s; cases t; cases h; rfl

instance [DecidableEq κ] [DecidableEq ν] : DecidableEq (Table κ ν) := fun s t =>
  decidable_of_iff (s.entries = t.entries) ⟨ext, fun h => h ▸ rfl⟩

instance [Repr κ] [Repr ν] : Repr (Table κ ν) := ⟨fun t n => reprPrec t.entries n⟩

/-- The table without entries. -/
def empty : Table κ ν := ⟨[], .nil⟩

instance : Inhabited (Table κ ν) := ⟨empty⟩

/-- The keys in ascending order. -/
def keys (t : Table κ ν) : List κ := t.entries.map (·.1)

/-- The values in the order of their keys. -/
def values (t : Table κ ν) : List ν := t.entries.map (·.2)

/-- The number of entries. -/
def size (t : Table κ ν) : Nat := t.entries.length

/-- Whether there is no entry at all. -/
def isEmpty (t : Table κ ν) : Bool := t.entries.isEmpty

/-- The value stored under a key that compares equal to `key`. -/
def findEntry (key : κ) : List (κ × ν) → Option ν
  | [] => none
  | (k, v) :: rest => if compare key k = .eq then some v else findEntry key rest

/-- The value stored under `key`. -/
def find? (t : Table κ ν) (key : κ) : Option ν := findEntry key t.entries

/-- Puts an entry in its place.  An equal key stays and takes the new value. -/
def insertEntry (key : κ) (value : ν) : List (κ × ν) → List (κ × ν)
  | [] => [(key, value)]
  | (k, v) :: rest =>
    match compare key k with
    | .lt => (key, value) :: (k, v) :: rest
    | .eq => (k, value) :: rest
    | .gt => (k, v) :: insertEntry key value rest

/-- Every key after an insertion compares equal to the new key or was there
before. -/
theorem mem_insertEntry {key : κ} {value : ν} {entries : List (κ × ν)} {e : κ × ν}
    (h : e ∈ insertEntry key value entries) :
    e = (key, value) ∨ ∃ v, (e.1, v) ∈ entries := by
  induction entries with
  | nil => simp only [insertEntry, List.mem_singleton] at h; exact .inl h
  | cons head rest ih =>
    obtain ⟨k, v⟩ := head
    simp only [insertEntry] at h
    split at h
    · rcases List.mem_cons.1 h with h | h
      · exact .inl h
      · exact .inr ⟨e.2, h⟩
    · rcases List.mem_cons.1 h with h | h
      · exact .inr ⟨v, by simp [h]⟩
      · exact .inr ⟨e.2, List.mem_cons_of_mem _ h⟩
    · rcases List.mem_cons.1 h with h | h
      · exact .inr ⟨v, by simp [h]⟩
      · rcases ih h with h | ⟨w, hw⟩
        · exact .inl h
        · exact .inr ⟨w, List.mem_cons_of_mem _ hw⟩

/-- Insertion keeps the entries ascending. -/
theorem ascending_insertEntry [Std.TransOrd κ] {key : κ} {value : ν} {entries : List (κ × ν)}
    (h : entries.Pairwise fun a b => compare a.1 b.1 = .lt) :
    (insertEntry key value entries).Pairwise fun a b => compare a.1 b.1 = .lt := by
  induction entries with
  | nil => simp [insertEntry]
  | cons head rest ih =>
    obtain ⟨k, v⟩ := head
    obtain ⟨hk, hrest⟩ := List.pairwise_cons.1 h
    simp only [insertEntry]
    split
    · next hlt =>
      refine List.pairwise_cons.2 ⟨fun e he => ?_, h⟩
      rcases List.mem_cons.1 he with he | he
      · simpa [he] using hlt
      · exact Std.TransCmp.lt_trans hlt (hk e he)
    · exact List.pairwise_cons.2 ⟨hk, hrest⟩
    · next hgt =>
      refine List.pairwise_cons.2 ⟨fun e he => ?_, ih hrest⟩
      rcases mem_insertEntry he with he | ⟨w, hw⟩
      · simpa [he] using Std.OrientedCmp.gt_iff_lt.1 hgt
      · exact hk (e.1, w) hw

variable [Std.TransOrd κ]

/-- The table with `value` under `key`. -/
def insert (t : Table κ ν) (key : κ) (value : ν) : Table κ ν :=
  ⟨insertEntry key value t.entries, ascending_insertEntry t.ascending⟩

/-- Inserts the entries of a list from left to right. -/
def insertAll (t : Table κ ν) (entries : List (κ × ν)) : Table κ ν :=
  entries.foldl (fun table e => table.insert e.1 e.2) t

/-- The table that a list of entries fills from left to right. -/
def ofList (entries : List (κ × ν)) : Table κ ν := empty.insertAll entries

/-- The table with every entry of `other` inserted. -/
def extend (t other : Table κ ν) : Table κ ν := t.insertAll other.entries

end Table

end Emitter
