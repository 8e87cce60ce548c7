import Emitter.Json.Basic

/-!
# Reading JSON

`Json.parse?` reads a whole document and answers `none` for anything that is not
one JSON value between blanks.

The scanners take characters off the front of the input and return the rest.
Scanners of tokens recurse on the input.  The three scanners of values, array
items and object members call each other and carry a bound on the number of
calls: between two calls that do not consume a character there is always one
that does, so twice the length of the input is enough.
-/

namespace Emitter.Json

/-! ## Blanks and digits -/

/-- The four characters that may stand between tokens. -/
def isBlank (c : Char) : Bool := c == ' ' || c == '\t' || c == '\n' || c == '\r'

/-- The input without leading blanks. -/
def skipBlanks (cs : List Char) : List Char := cs.dropWhile isBlank

/-- A decimal digit. -/
def isDigit (c : Char) : Bool := decide ('0' ≤ c ∧ c ≤ '9')

/-- The value of a hexadecimal digit. -/
def hexValue? (c : Char) : Option Nat :=
  if '0' ≤ c ∧ c ≤ '9' then some (c.toNat - 48)
  else if 'a' ≤ c ∧ c ≤ 'f' then some (c.toNat - 87)
  else if 'A' ≤ c ∧ c ≤ 'F' then some (c.toNat - 55)
  else none

/-- The 16-bit unit that four hexadecimal digits spell. -/
def unitValue? (a b c d : Char) : Option Nat := do
  let a ← hexValue? a
  let b ← hexValue? b
  let c ← hexValue? c
  let d ← hexValue? d
  return ((a * 16 + b) * 16 + c) * 16 + d

/-! ## Strings -/

/-- A piece of a string literal: a character, or the unit of an escape. -/
inductive Piece where
  | char (c : Char)
  | unit (u : Nat)
deriving DecidableEq, Repr

/-- The character that a one-letter escape stands for. -/
def escaped? : Char → Option Char
  | '"' => some '"'
  | '\\' => some '\\'
  | '/' => some '/'
  | 'b' => some (Char.ofNat 8)
  | 'f' => some (Char.ofNat 12)
  | 'n' => some '\n'
  | 'r' => some '\r'
  | 't' => some '\t'
  | _ => none

/-- Reads the pieces of a string up to its closing quote.  A control character
must be escaped. -/
def pieces : List Char → Option (List Piece × List Char)
  | [] => none
  | '"' :: rest => some ([], rest)
  | '\\' :: 'u' :: a :: b :: c :: d :: rest => do
    let u ← unitValue? a b c d
    let (tail, rest) ← pieces rest
    return (.unit u :: tail, rest)
  | '\\' :: e :: rest => do
    let c ← escaped? e
    let (tail, rest) ← pieces rest
    return (.char c :: tail, rest)
  | c :: rest =>
    if c.toNat < 32 ∨ c = '\\' then none
    else do
      let (tail, rest) ← pieces rest
      return (.char c :: tail, rest)

/-- The first half of a pair of units that spells one character. -/
def isLeading (u : Nat) : Bool := decide (0xD800 ≤ u ∧ u < 0xDC00)

/-- The second half of such a pair. -/
def isTrailing (u : Nat) : Bool := decide (0xDC00 ≤ u ∧ u < 0xE000)

/-- The characters that pieces spell.  Half a pair on its own spells nothing. -/
def spelled? : List Piece → Option (List Char)
  | [] => some []
  | .char c :: rest => (spelled? rest).map (c :: ·)
  | .unit u :: .unit v :: rest =>
    if isLeading u then
      if isTrailing v then
        (spelled? rest).map (Char.ofNat (0x10000 + (u - 0xD800) * 0x400 + (v - 0xDC00)) :: ·)
      else none
    else if isTrailing u then none
    else (spelled? (.unit v :: rest)).map (Char.ofNat u :: ·)
  | .unit u :: rest =>
    if isLeading u || isTrailing u then none
    else (spelled? rest).map (Char.ofNat u :: ·)

/-- Reads the rest of a string literal after its opening quote. -/
def string? (cs : List Char) : Option (Option String × List Char) := do
  let (parts, rest) ← pieces cs
  return ((spelled? parts).map String.ofList, rest)

/-! ## Numbers -/

/-- Splits off a run of digits, which must not be empty. -/
def digits? (cs : List Char) : Option (List Char × List Char) :=
  match cs.takeWhile isDigit with
  | [] => none
  | run => some (run, cs.dropWhile isDigit)

/-- Reads the part of a number before the point: no zero leads other digits. -/
def whole? : List Char → Option (List Char × List Char)
  | '0' :: rest => some (['0'], rest)
  | cs => digits? cs

/-- Reads the digits after a point, if there is one. -/
def fraction? : List Char → Option (Option (List Char) × List Char)
  | '.' :: rest => (digits? rest).map fun (run, rest) => (some run, rest)
  | cs => some (none, cs)

/-- Reads the digits of an exponent with their sign. -/
def signedDigits? : List Char → Option (Int × List Char)
  | '-' :: rest => (digits? rest).map fun (run, rest) => (-(Decimal.ofDigits run : Int), rest)
  | '+' :: rest => (digits? rest).map fun (run, rest) => ((Decimal.ofDigits run : Int), rest)
  | cs => (digits? cs).map fun (run, rest) => ((Decimal.ofDigits run : Int), rest)

/-- Reads an exponent, if there is one. -/
def exponent? : List Char → Option (Option Int × List Char)
  | 'e' :: rest => (signedDigits? rest).map fun (e, rest) => (some e, rest)
  | 'E' :: rest => (signedDigits? rest).map fun (e, rest) => (some e, rest)
  | cs => some (none, cs)

/-- The value of a number from its parts.  Plain digits are a natural number. -/
def numberOf (negative : Bool) (whole : List Char) (fraction : Option (List Char))
    (exponent : Option Int) : Json :=
  match negative, fraction, exponent with
  | false, none, none => .natural (Decimal.ofDigits whole)
  | _, _, _ =>
    let tail := fraction.getD []
    .decimal ⟨negative, Decimal.ofDigits (whole ++ tail), exponent.getD 0 - tail.length⟩

/-- Reads a number after its sign. -/
def unsigned? (negative : Bool) (cs : List Char) : Option (Json × List Char) := do
  let (whole, rest) ← whole? cs
  let (fraction, rest) ← fraction? rest
  let (exponent, rest) ← exponent? rest
  return (numberOf negative whole fraction exponent, rest)

/-! ## Values -/

mutual
/-- Reads one value that starts at the front of the input. -/
def value? : Nat → List Char → Option (Json × List Char)
  | 0, _ => none
  | _ + 1, 'n' :: 'u' :: 'l' :: 'l' :: rest => some (.null, rest)
  | _ + 1, 't' :: 'r' :: 'u' :: 'e' :: rest => some (.bool true, rest)
  | _ + 1, 'f' :: 'a' :: 'l' :: 's' :: 'e' :: rest => some (.bool false, rest)
  | _ + 1, '"' :: rest => (string? rest).map fun (text, rest) => (.string text, rest)
  | _ + 1, '-' :: rest => unsigned? true rest
  | fuel + 1, '[' :: rest =>
    match skipBlanks rest with
    | ']' :: rest => some (.array [], rest)
    | rest => (items? fuel rest).map fun (items, rest) => (.array items, rest)
  | fuel + 1, '{' :: rest =>
    match skipBlanks rest with
    | '}' :: rest => some (.object [], rest)
    | rest => (members? fuel rest).map fun (members, rest) => (.object members, rest)
  | _ + 1, cs => unsigned? false cs

/-- Reads array items up to the closing bracket. -/
def items? : Nat → List Char → Option (List Json × List Char)
  | 0, _ => none
  | fuel + 1, cs => do
    let (item, rest) ← value? fuel cs
    match skipBlanks rest with
    | ']' :: rest => some ([item], rest)
    | ',' :: rest =>
      let (items, rest) ← items? fuel (skipBlanks rest)
      return (item :: items, rest)
    | _ => none

/-- Reads object members up to the closing brace. -/
def members? : Nat → List Char → Option (List (Option String × Json) × List Char)
  | 0, _ => none
  | fuel + 1, '"' :: cs => do
    let (name, rest) ← string? cs
    match skipBlanks rest with
    | ':' :: rest =>
      let (value, rest) ← value? fuel (skipBlanks rest)
      match skipBlanks rest with
      | '}' :: rest => some ([(name, value)], rest)
      | ',' :: rest =>
        let (members, rest) ← members? fuel (skipBlanks rest)
        return ((name, value) :: members, rest)
      | _ => none
    | _ => none
  | _ + 1, _ => none
end

/-- Reads a whole document. -/
def parse? (text : String) : Option Json := do
  let cs := text.toList
  let (value, rest) ← value? (2 * cs.length + 2) (skipBlanks cs)
  if (skipBlanks rest).isEmpty then some value else none

end Emitter.Json
