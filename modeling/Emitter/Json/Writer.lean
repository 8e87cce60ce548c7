import Emitter.Json.Basic

/-!
# Writing JSON

`Json.pretty` lays a value out over lines, two blanks for each layer, with a
member or an item on each line.  Empty arrays and objects stay on one line.

A string that is not text is written as an escape that spells nothing, so that
reading gives it back.
-/

namespace Emitter.Json

/-- The digit of a value below sixteen. -/
def hexDigit (n : Nat) : Char := Nat.digitChar n

/-- How a character stands in a string literal. -/
def escape (c : Char) : List Char :=
  if c = '"' then ['\\', '"']
  else if c = '\\' then ['\\', '\\']
  else if c = '\n' then ['\\', 'n']
  else if c = '\r' then ['\\', 'r']
  else if c = '\t' then ['\\', 't']
  else if c = Char.ofNat 8 then ['\\', 'b']
  else if c = Char.ofNat 12 then ['\\', 'f']
  else if c.toNat < 32 then ['\\', 'u', '0', '0', hexDigit (c.toNat / 16), hexDigit (c.toNat % 16)]
  else [c]

/-- A string literal. -/
def quoted : Option String → List Char
  | some text => '"' :: text.toList.flatMap escape ++ ['"']
  | none => "\"\\ud800\"".toList

/-- The characters of a decimal literal. -/
def decimalChars (d : Decimal) : List Char :=
  (if d.negative then ['-'] else []) ++ d.digits.repr.toList ++ 'e' :: d.exponent.repr.toList

/-- The start of a line at a layer. -/
def lineBreak (layer : Nat) : List Char := '\n' :: List.replicate (2 * layer) ' '

mutual
/-- The lines of a value whose first line starts somewhere in the given layer. -/
def prettyChars (layer : Nat) : Json → List Char
  | .null => "null".toList
  | .bool true => "true".toList
  | .bool false => "false".toList
  | .natural n => n.repr.toList
  | .decimal d => decimalChars d
  | .string text => quoted text
  | .array [] => ['[', ']']
  | .array (item :: rest) =>
    '[' :: lineBreak (layer + 1) ++ prettyChars (layer + 1) item ++
      prettyItems (layer + 1) rest ++ lineBreak layer ++ [']']
  | .object [] => ['{', '}']
  | .object ((name, value) :: rest) =>
    '{' :: lineBreak (layer + 1) ++ quoted name ++ [':', ' '] ++ prettyChars (layer + 1) value ++
      prettyMembers (layer + 1) rest ++ lineBreak layer ++ ['}']

/-- Further items of an array, each after a comma on a new line. -/
def prettyItems (layer : Nat) : List Json → List Char
  | [] => []
  | item :: rest => ',' :: lineBreak layer ++ prettyChars layer item ++ prettyItems layer rest

/-- Further members of an object, each after a comma on a new line. -/
def prettyMembers (layer : Nat) : List (Option String × Json) → List Char
  | [] => []
  | (name, value) :: rest =>
    ',' :: lineBreak layer ++ quoted name ++ [':', ' '] ++ prettyChars layer value ++
      prettyMembers layer rest
end

/-- The document laid out over lines. -/
def pretty (value : Json) : String := String.ofList (prettyChars 0 value)

end Emitter.Json
