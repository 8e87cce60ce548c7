/-!
# Paths

A path is the text that names a file, with `/` between segments.  The text is
kept as it was put together, but two paths are compared by their components:
repeated separators and inner `.` segments do not count.

* `Path.join` appends a segment; a segment that starts at the root replaces
  everything before it, and an empty segment leaves a trailing separator;
* `Path.components` is the view that the order and all file access go by;
* `Path.parent?` is the path without its last step;
* `Path.ofDotted` is the directory of a dotted package name.
-/

namespace Emitter

/-- The pieces of a text between the occurrences of a separator. -/
def splitText (separator : Char) (text : String) : List String :=
  (text.toList.splitOn separator).map String.ofList

/-- One step of a path. -/
inductive Component where
  /-- The root of the file system. -/
  | root
  /-- A leading `.`. -/
  | current
  /-- A step up. -/
  | parent
  /-- A step into a named entry. -/
  | name (text : String)
deriving DecidableEq, Repr

namespace Component

/-- Where the form of a component stands in the order. -/
def rank : Component → Nat
  | root => 0
  | current => 1
  | parent => 2
  | name _ => 3

/-- The name that a component steps into. -/
def label : Component → String
  | name text => text
  | _ => ""

/-- Components are ordered by form and then by name. -/
instance : Ord Component := ⟨compareLex (compareOn rank) (compareOn label)⟩

instance : Std.TransOrd Component :=
  inferInstanceAs (Std.TransCmp (compareLex (compareOn rank) (compareOn label)))

/-- What a segment after the first stands for; an empty or `.` segment stands
for nothing. -/
def ofSegment? (segment : String) : Option Component :=
  if segment = "" ∨ segment = "." then none
  else if segment = ".." then some parent
  else some (name segment)

end Component

/-- A path as text. -/
structure Path where
  text : String
deriving DecidableEq, Repr, Inhabited

namespace Path

/-- The path without segments. -/
def empty : Path := ⟨""⟩

/-- Whether the path starts at the root. -/
def isAbsolute (p : Path) : Bool := p.text.toList.head? == some '/'

/-- The steps that the path consists of. -/
def components (p : Path) : List Component :=
  match splitText '/' p.text with
  | [] => []
  | first :: rest =>
    let steps := rest.filterMap Component.ofSegment?
    if p.isAbsolute then .root :: steps
    else if first = "." then .current :: steps
    else (Component.ofSegment? first).toList ++ steps

/-- The steps to the directory that the path is in. -/
def directory (p : Path) : List Component := p.components.dropLast

/-- The segments up to the last that stands for a step. -/
def dropIdle (segments : List String) : List String :=
  (segments.reverse.dropWhile fun segment => (Component.ofSegment? segment).isNone).reverse

/-- The segments up to the last step but one, if there is a step. -/
def beforeLast? (segments : List String) : Option (List String) :=
  match dropIdle segments with
  | [] => none
  | steps => some (dropIdle steps.dropLast)

/-- The path without its last step, as it is written up to there.  The root and the
path without steps have none. -/
def parent? (p : Path) : Option Path :=
  match splitText '/' p.text with
  | [] => none
  | first :: rest =>
    if p.isAbsolute then (beforeLast? rest).map fun steps => ⟨"/" ++ "/".intercalate steps⟩
    else if first = "." then
      match beforeLast? rest with
      | some steps => some ⟨"/".intercalate (first :: steps)⟩
      | none => some empty
    else (beforeLast? (first :: rest)).map fun steps => ⟨"/".intercalate steps⟩

/-- The name of the file; a path that ends at a separator, at `.` or at `..` is
not that of a file. -/
def fileName? (p : Path) : Option String :=
  match (splitText '/' p.text).getLast? with
  | none => none
  | some last => if last = "" ∨ last = "." ∨ last = ".." then none else some last

/-- Paths are ordered by their components. -/
instance : Ord Path := ⟨compareOn components⟩

instance : Std.TransOrd Path := inferInstanceAs (Std.TransCmp (compareOn components))

/-- The path with a segment appended. -/
def join (p : Path) (segment : String) : Path :=
  if segment.toList.head? = some '/' then ⟨segment⟩
  else if p.text.isEmpty ∨ p.text.toList.getLast? = some '/' then ⟨p.text ++ segment⟩
  else ⟨p.text ++ "/" ++ segment⟩

/-- The directory of a dotted name: each part is a segment. -/
def ofDotted (dotted : String) : Path := (splitText '.' dotted).foldl join empty

end Path

end Emitter
