import Emitter.Toml.Quoted
import Emitter.Toml.Table

/-!
# Reading TOML

`Toml.parse?` reads a whole document into the entries of its top table and
answers `none` for anything that is not TOML.

A document is read line by line.  The scanners of values carry a bound on the
number of calls; every call consumes a character or is followed by one that
does, so twice the length of the input is enough.  Arrays and inline tables nest
at most `maxLayers` deep, and a key has at most as many parts.
-/

namespace Emitter.Toml

/-- How deep arrays and inline tables may nest. -/
def maxLayers : Nat := 79

/-! ## Blanks, comments and line ends -/

/-- The input without leading blanks. -/
def skipBlanks (cs : List Char) : List Char := cs.dropWhile isBlank

/-- The input after blanks, line breaks and comments. -/
def skipLayout (inComment : Bool) : List Char → List Char
  | [] => []
  | '\n' :: rest => skipLayout false rest
  | '\r' :: '\n' :: rest => skipLayout false rest
  | c :: rest =>
    if inComment then if isPlain c then skipLayout true rest else c :: rest
    else if isBlank c then skipLayout false rest
    else if c = '#' then skipLayout true rest
    else c :: rest

/-- The input after the end of a line, before which there may be blanks and a
comment. -/
def lineEnd? (cs : List Char) : Option (List Char) :=
  let rest := match skipBlanks cs with
    | '#' :: comment => comment.dropWhile isPlain
    | other => other
  match rest with
  | [] => some []
  | other => afterBreak? other

/-! ## Keys -/

/-- Reads one part of a key. -/
def keyPart? : List Char → Option (String × List Char)
  | '"' :: rest => (basic? rest).map fun (text, rest) => (String.ofList text, rest)
  | '\'' :: rest => (literal? rest).map fun (text, rest) => (String.ofList text, rest)
  | cs =>
    match cs.takeWhile isBareKeyChar with
    | [] => none
    | part => some (String.ofList part, cs.dropWhile isBareKeyChar)

/-- Reads a key with its parts between points, and the blanks around them. -/
def keyParts? : Nat → List Char → Option (List String × List Char)
  | 0, _ => none
  | fuel + 1, cs => do
    let (part, rest) ← keyPart? (skipBlanks cs)
    match skipBlanks rest with
    | '.' :: rest =>
      let (parts, rest) ← keyParts? fuel rest
      return (part :: parts, rest)
    | rest => return ([part], rest)

/-- Reads a key as the path of its table and its last part. -/
def key? (cs : List Char) : Option ((List String × String) × List Char) := do
  let (parts, rest) ← keyParts? (maxLayers + 1) cs
  let last ← parts.getLast?
  if parts.length ≤ maxLayers then some ((parts.dropLast, last), rest) else none

/-! ## Values -/

/-- Reads a scalar that is not a string.  A time may follow a date after one
blank. -/
def readScalar? (cs : List Char) : Option (Value × List Char) := do
  let run := cs.takeWhile isScalarChar
  let rest := cs.dropWhile isScalarChar
  match date? run, rest with
  | some (_, []), ' ' :: digit :: more =>
    if isDigit digit then
      let time := (digit :: more).takeWhile isScalarChar
      return (← scalar? (run ++ ' ' :: time), (digit :: more).dropWhile isScalarChar)
    else return (← scalar? run, rest)
  | _, _ => return (← scalar? run, rest)

mutual
/-- Reads one value at the front of the input. -/
def value? (layers : Nat) : Nat → List Char → Option (Value × List Char)
  | 0, _ => none
  | fuel + 1, '[' :: rest =>
    match layers with
    | 0 => none
    | layers + 1 => (items? layers fuel (skipLayout false rest)).map fun (items, rest) =>
        (.array items, rest)
  | fuel + 1, '{' :: rest =>
    match layers with
    | 0 => none
    | layers + 1 =>
      match skipBlanks rest with
      | '}' :: rest => some (.table [], rest)
      | rest => do
        let (entries, rest) ← entries? layers fuel [] rest
        return (.table (finishEntries entries), rest)
  | _ + 1, '"' :: rest =>
    (string? ('"' :: rest)).map fun (text, rest) => (.string (String.ofList text), rest)
  | _ + 1, '\'' :: rest =>
    (string? ('\'' :: rest)).map fun (text, rest) => (.string (String.ofList text), rest)
  | _ + 1, cs => readScalar? cs

/-- Reads array items up to the closing bracket; a comma may follow the last. -/
def items? (layers : Nat) : Nat → List Char → Option (List Value × List Char)
  | 0, _ => none
  | _ + 1, ']' :: rest => some ([], rest)
  | fuel + 1, cs => do
    let (item, rest) ← value? layers fuel cs
    match skipLayout false rest with
    | ']' :: rest => some ([item], rest)
    | ',' :: rest =>
      let (items, rest) ← items? layers fuel (skipLayout false rest)
      return (item :: items, rest)
    | _ => none

/-- Reads entries of an inline table up to the closing brace. -/
def entries? (layers : Nat) : Nat → Entries → List Char → Option (Entries × List Char)
  | 0, _, _ => none
  | fuel + 1, entries, cs => do
    let ((path, key), rest) ← key? cs
    match rest with
    | '=' :: rest =>
      let (value, rest) ← value? layers fuel (skipBlanks rest)
      let entries ← addDotted path key value entries
      match skipBlanks rest with
      | '}' :: rest => some (entries, rest)
      | ',' :: rest => entries? layers fuel entries rest
      | _ => none
    | _ => none
end

/-! ## Lines -/

/-- What a line says. -/
inductive Line where
  | entry (path : List String) (key : String) (value : Value)
  | header (path : List String) (key : String)
  | repeated (path : List String) (key : String)
deriving Repr

/-- Reads the rest of a header after its opening bracket or brackets. -/
def header? (closing : List Char) (make : List String → String → Line) (cs : List Char) :
    Option (Line × List Char) := do
  let ((path, key), rest) ← key? cs
  if closing.isPrefixOf rest then
    return (make path key, ← lineEnd? (rest.drop closing.length))
  else none

/-- Reads a key, its value and the end of the line. -/
def entry? (cs : List Char) : Option (Line × List Char) := do
  let ((path, key), rest) ← key? cs
  match rest with
  | '=' :: rest =>
    let (value, rest) ← value? maxLayers (2 * rest.length + 2) (skipBlanks rest)
    return (.entry path key value, ← lineEnd? rest)
  | _ => none

/-- Reads all lines of a document.  The bound is on the number of lines. -/
def lines? : Nat → List Char → Option (List Line)
  | 0, _ => none
  | fuel + 1, cs =>
    match skipBlanks cs with
    | [] => some []
    | '[' :: '[' :: rest => do
      let (line, rest) ← header? [']', ']'] .repeated rest
      return line :: (← lines? fuel rest)
    | '[' :: rest => do
      let (line, rest) ← header? [']'] .header rest
      return line :: (← lines? fuel rest)
    | '#' :: rest => do lines? fuel (← lineEnd? ('#' :: rest))
    | '\n' :: rest => lines? fuel rest
    | '\r' :: '\n' :: rest => lines? fuel rest
    | rest => do
      let (line, rest) ← entry? rest
      return line :: (← lines? fuel rest)

/-! ## Documents -/

/-- Fills a table line by line.  `current` is the path of the table that the
latest header opened. -/
def fill : List String → Entries → List Line → Option Entries
  | _, entries, [] => some entries
  | current, entries, .entry path key value :: rest => do
    let entries ← within .implied (fun _ inner => addDotted path key value inner) current .header
      entries
    fill current entries rest
  | _, entries, .header path key :: rest => do
    fill (path ++ [key]) (← openTable path key entries) rest
  | _, entries, .repeated path key :: rest => do
    fill (path ++ [key]) (← openRepeated path key entries) rest

/-- The input without a byte order mark. -/
def skipMark : List Char → List Char
  | c :: rest => if c.toNat = 0xFEFF then rest else c :: rest
  | [] => []

/-- The entries of a document's top table. -/
def parse? (document : String) : Option (List (String × Value)) := do
  let cs := skipMark document.toList
  let entries ← fill [] [] (← lines? (cs.length + 1) cs)
  return finishEntries entries

end Emitter.Toml
