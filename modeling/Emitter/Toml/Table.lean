import Emitter.Toml.Value

/-!
# TOML tables

How the lines of a document, and the entries of an inline table, fill a table.

A table remembers where it comes from: from a header of its own, from a longer
header that passes through it, or from dotted keys.  That decides what may still
be added to it:

* a header may define a table once, and only if no dotted key made it;
* dotted keys may add only to tables that dotted keys made;
* a key may be given once.
-/

namespace Emitter.Toml

/-- Where a table comes from. -/
inductive Origin where
  /-- A header, or the document itself. -/
  | header
  /-- A longer header. -/
  | implied
  /-- Dotted keys. -/
  | dotted
deriving DecidableEq, Repr

/-- What a key of an unfinished table stands for. -/
inductive Item where
  | value (value : Value)
  | table (origin : Origin) (entries : List (String × Item))
  /-- The tables of a repeated header, the latest last. -/
  | tables (all : List (List (String × Item)))
deriving Inhabited

/-- The entries of an unfinished table. -/
abbrev Entries := List (String × Item)

/-! ## Filling -/

/-- Changes what a key stands for, or adds the key; `none` forbids it. -/
def alter (key : String) (change : Option Item → Option Item) : Entries → Option Entries
  | [] => (change none).map fun item => [(key, item)]
  | (k, item) :: rest =>
    if k = key then (change (some item)).map fun item => (k, item) :: rest
    else (alter key change rest).map ((k, item) :: ·)

/-- Changes the latest of some tables. -/
def alterLast (change : Entries → Option Entries) : List Entries → Option (List Entries)
  | [] => none
  | [last] => (change last).map fun entries => [entries]
  | first :: rest => (alterLast change rest).map (first :: ·)

/-- Changes the entries of the table at the end of a path.  Missing tables on the
way are made with origin `making`; on the way of dotted keys there must be no
table with a header. -/
def within (making : Origin) (change : Origin → Entries → Option Entries) :
    List String → Origin → Entries → Option Entries
  | [], origin, entries => change origin entries
  | key :: path, _, entries =>
    alter key (fun item =>
      match item with
      | none => (within making change path making []).map (.table making)
      | some (.value _) => none
      | some (.table origin inner) =>
        if making = .dotted ∧ origin = .header then none
        else (within making change path origin inner).map (.table origin)
      | some (.tables all) => (alterLast (within making change path .header) all).map .tables)
      entries

/-- Adds a new key to a table. -/
def addNew (key : String) (value : Value) (entries : Entries) : Option Entries :=
  alter key (fun item =>
    match item with
    | none => some (.value value)
    | some _ => none) entries

/-- Adds the value of a dotted key to a table. -/
def addDotted (path : List String) (key : String) (value : Value) (entries : Entries) :
    Option Entries :=
  match path with
  | [] => addNew key value entries
  | path =>
    within .dotted (fun origin inner =>
      if origin = .dotted then addNew key value inner else none) path .header entries

/-- Defines the table of a header. -/
def openTable (path : List String) (key : String) (entries : Entries) : Option Entries :=
  within .implied (fun _ inner =>
    alter key (fun item =>
      match item with
      | none => some (.table .header [])
      | some (.table .implied inner) => some (.table .header inner)
      | some _ => none) inner) path .header entries

/-- Appends a table to those of a repeated header. -/
def openRepeated (path : List String) (key : String) (entries : Entries) : Option Entries :=
  within .implied (fun _ inner =>
    alter key (fun item =>
      match item with
      | none => some (.tables [[]])
      | some (.tables all) => some (.tables (all ++ [[]]))
      | some _ => none) inner) path .header entries

/-! ## Finished tables -/

mutual
/-- The value of an item. -/
def Item.finish : Item → Value
  | .value value => value
  | .table _ entries => .table (finishEntries entries)
  | .tables all => .array (finishTables all)

/-- The values of all keys. -/
def finishEntries : List (String × Item) → List (String × Value)
  | [] => []
  | (key, item) :: rest => (key, item.finish) :: finishEntries rest

/-- The values of all tables of a repeated header. -/
def finishTables : List (List (String × Item)) → List Value
  | [] => []
  | entries :: rest => .table (finishEntries entries) :: finishTables rest
end

end Emitter.Toml
