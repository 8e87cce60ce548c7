import Emitter.Decimal

/-!
# TOML values

The values of a TOML document, and the scalars that are not strings: booleans,
integers, floats, dates and times.  A scalar is one run of characters
(`isScalarChar`), which `scalar?` classifies as a whole.

Floats are only checked, since no setting is a float; dates and times are kept
as text in their normal form.
-/

namespace Emitter.Toml

/-- A TOML value. -/
inductive Value where
  | string (text : String)
  | integer (value : Int)
  | float
  | boolean (value : Bool)
  /-- A date, a time, or both, in normal form. -/
  | moment (text : String)
  | array (items : List Value)
  | table (entries : List (String × Value))
deriving Inhabited, Repr

/-! ## Digits -/

/-- A decimal digit. -/
def isDigit (c : Char) : Bool := decide ('0' ≤ c ∧ c ≤ '9')

/-- The value of a digit in bases up to sixteen. -/
def digitValue? (base : Nat) (c : Char) : Option Nat :=
  let value :=
    if '0' ≤ c ∧ c ≤ '9' then c.toNat - 48
    else if 'a' ≤ c ∧ c ≤ 'f' then c.toNat - 87
    else if 'A' ≤ c ∧ c ≤ 'F' then c.toNat - 55
    else base
  if value < base then some value else none

/-- The digits of a run in which single underscores may stand between digits. -/
def plainDigits? (base : Nat) (cs : List Char) : Option (List Char) :=
  let groups := cs.splitOn '_'
  if groups.all fun group => !group.isEmpty && group.all fun c => (digitValue? base c).isSome then
    some groups.flatten
  else none

/-- The value of digits in a base. -/
def valueOf (base : Nat) (digits : List Char) : Nat :=
  digits.foldl (fun value c => base * value + (digitValue? base c).getD 0) 0

/-! ## Numbers -/

/-- Splits off a sign; `true` is minus. -/
def signed : List Char → Bool × List Char
  | '-' :: rest => (true, rest)
  | '+' :: rest => (false, rest)
  | cs => (false, cs)

/-- A whole number without sign: no zero leads other digits. -/
def wholeDigits? (cs : List Char) : Option (List Char) := do
  let digits ← plainDigits? 10 cs
  match cs with
  | '0' :: _ :: _ => none
  | _ => some digits

/-- Half the number of 64-bit words: the magnitude that integers stay below. -/
def integerLimit : Nat := 9223372036854775808

/-- An integer that fits 64 bits with a sign. -/
def bounded? (value : Int) : Option Value :=
  if -(integerLimit : Int) ≤ value ∧ value < (integerLimit : Int) then some (.integer value)
  else none

/-- An integer in decimal, hexadecimal, octal or binary notation. -/
def integer? : List Char → Option Value
  | '0' :: 'x' :: digits => do bounded? (valueOf 16 (← plainDigits? 16 digits))
  | '0' :: 'o' :: digits => do bounded? (valueOf 8 (← plainDigits? 8 digits))
  | '0' :: 'b' :: digits => do bounded? (valueOf 2 (← plainDigits? 2 digits))
  | cs => do
    let (negative, digits) := signed cs
    let value : Int := valueOf 10 (← wholeDigits? digits)
    bounded? (if negative then -value else value)

/-- The exponent after its letter. -/
def exponent? (cs : List Char) : Option Int := do
  let (negative, digits) := signed cs
  let value : Int := valueOf 10 (← plainDigits? 10 digits)
  return if negative then -value else value

/-- A float.  It has a fraction or an exponent, and it must not overflow
upwards. -/
def float? (cs : List Char) : Option Value := do
  let (negative, cs) := signed cs
  if cs = "inf".toList ∨ cs = "nan".toList then return .float
  let isMark := fun c => c == 'e' || c == 'E'
  let mantissa := cs.takeWhile fun c => !isMark c
  let exponent ← (match cs.dropWhile fun c => !isMark c with
    | [] => some none
    | _ :: digits => (exponent? digits).map some : Option (Option Int))
  let whole ← wholeDigits? (mantissa.takeWhile (· ≠ '.'))
  let fraction ← (match mantissa.dropWhile (· ≠ '.') with
    | [] => some none
    | _ :: digits => (plainDigits? 10 digits).map some : Option (Option (List Char)))
  if exponent.isNone ∧ fraction.isNone then none
  let tail := fraction.getD []
  let number : Decimal :=
    ⟨negative, valueOf 10 (whole ++ tail), exponent.getD 0 - tail.length⟩
  if number.overflows ∧ ¬negative then none else some .float

/-! ## Dates and times -/

/-- A two-digit number up to a limit. -/
def pair? (limit : Nat) (a b : Char) : Option Nat :=
  if isDigit a ∧ isDigit b then
    let value := valueOf 10 [a, b]
    if value ≤ limit then some value else none
  else none

/-- The number of days of a month. -/
def daysIn (year month : Nat) : Nat :=
  if month = 2 then
    if year % 4 = 0 ∧ (year % 100 ≠ 0 ∨ year % 400 = 0) then 29 else 28
  else if month = 4 ∨ month = 6 ∨ month = 9 ∨ month = 11 then 30
  else 31

/-- A date at the front, as it stands, and what follows it. -/
def date? : List Char → Option (List Char × List Char)
  | a :: b :: c :: d :: '-' :: m :: n :: '-' :: x :: y :: rest => do
    if !([a, b, c, d].all isDigit) then none
    let month ← pair? 12 m n
    let day ← pair? 31 x y
    if month = 0 ∨ day = 0 ∨ daysIn (valueOf 10 [a, b, c, d]) month < day then none
    return ([a, b, c, d, '-', m, n, '-', x, y], rest)
  | _ => none

/-- A fraction of a second in normal form: at most nine digits and no zeros at
the end. -/
def secondFraction (digits : List Char) : List Char :=
  match ((digits.take 9).reverse.dropWhile (· == '0')).reverse with
  | [] => []
  | kept => '.' :: kept

/-- A time of day at the front, in normal form, and what follows it. -/
def time? : List Char → Option (List Char × List Char)
  | a :: b :: ':' :: c :: d :: ':' :: e :: f :: rest => do
    let _ ← pair? 23 a b
    let _ ← pair? 59 c d
    let _ ← pair? 60 e f
    let clock := [a, b, ':', c, d, ':', e, f]
    match rest with
    | '.' :: rest =>
      let digits := rest.takeWhile isDigit
      if digits.isEmpty then none
      return (clock ++ secondFraction digits, rest.dropWhile isDigit)
    | _ => return (clock, rest)
  | _ => none

/-- A time zone, which ends the scalar. -/
def zone? : List Char → Option (List Char)
  | [] => some []
  | ['Z'] => some ['Z']
  | ['z'] => some ['Z']
  | [sign, a, b, ':', c, d] => do
    if sign ≠ '+' ∧ sign ≠ '-' then none
    let hours ← pair? 23 a b
    let minutes ← pair? 59 c d
    return [if hours = 0 ∧ minutes = 0 then '+' else sign, a, b, ':', c, d]
  | _ => none

/-- A date, a time, or a date and a time with or without a zone. -/
def moment? (cs : List Char) : Option Value :=
  match date? cs with
  | some (date, []) => some (.moment (String.ofList date))
  | some (date, delimiter :: rest) => do
    if delimiter ≠ 'T' ∧ delimiter ≠ 't' ∧ delimiter ≠ ' ' then none
    let (time, rest) ← time? rest
    let zone ← zone? rest
    return .moment (String.ofList (date ++ 'T' :: time ++ zone))
  | none => do
    let (time, rest) ← time? cs
    if rest.isEmpty then return .moment (String.ofList time) else none

/-! ## Scalars -/

/-- The characters that scalars other than strings consist of. -/
def isScalarChar (c : Char) : Bool :=
  isDigit c || decide ('a' ≤ c ∧ c ≤ 'z') || decide ('A' ≤ c ∧ c ≤ 'Z') ||
    c == '+' || c == '-' || c == '_' || c == '.' || c == ':'

/-- What a complete run of scalar characters stands for. -/
def scalar? (cs : List Char) : Option Value :=
  if cs = "true".toList then some (.boolean true)
  else if cs = "false".toList then some (.boolean false)
  else (moment? cs).or ((float? cs).or (integer? cs))

end Emitter.Toml
