import Emitter.Decimal

/-!
# JSON values

A JSON document as a value.  Two things are kept that many readers drop:

* whether a number was written as plain digits (`natural`) or with a sign, a
  fraction or an exponent (`decimal`);
* strings whose escapes do not spell Unicode text, as `none`.  Such a string is
  harmless where a document is skipped over and refused where it is read.

`Json.isSound` says that a value can be read in full: all its strings are text,
no number overflows a double when it is scaled, and arrays and objects nest no deeper than a given
number of layers.
-/

namespace Emitter

/-- A JSON value. -/
inductive Json where
  | null
  | bool (value : Bool)
  | natural (value : Nat)
  | decimal (value : Decimal)
  | string (text : Option String)
  | array (items : List Json)
  | object (members : List (Option String × Json))
deriving Inhabited, Repr

namespace Json

/-- A string value. -/
def text (s : String) : Json := .string (some s)

/-- An object from names and values. -/
def record (fields : List (String × Json)) : Json :=
  .object (fields.map fun (name, value) => (some name, value))

/-- A value or `null`. -/
def orNull (value : Option Json) : Json := value.getD .null

mutual
/-- Whether a value can be read in full with the given number of layers left. -/
def isSound (layers : Nat) : Json → Bool
  | null => true
  | bool _ => true
  | natural n => !(Decimal.overflowsScaled ⟨false, n, 0⟩)
  | decimal d => !d.overflowsScaled
  | string text => text.isSome
  | array items => decide (0 < layers) && areSound (layers - 1) items
  | object members => decide (0 < layers) && membersAreSound (layers - 1) members

/-- `isSound` of every item. -/
def areSound (layers : Nat) : List Json → Bool
  | [] => true
  | item :: rest => isSound layers item && areSound layers rest

/-- `isSound` of every member, name included. -/
def membersAreSound (layers : Nat) : List (Option String × Json) → Bool
  | [] => true
  | (name, value) :: rest => name.isSome && isSound layers value && membersAreSound layers rest
end

end Json

end Emitter
