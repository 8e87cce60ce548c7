/-!
# Decimal literals

A number as written in decimal notation, kept exactly.  The only question that
the formats ask about such a number is whether reading it as a double overflows
to infinity.  There are two ways to read it:

* the exact value is rounded once (`Decimal.overflows`);
* the leading digits that fit 64 bits are scaled by a power of ten in a single
  multiplication of doubles (`Decimal.overflowsScaled`).

They disagree on some numbers next to the largest double.
-/

namespace Emitter

/-- The number `± digits · 10 ^ exponent`. -/
structure Decimal where
  negative : Bool
  digits : Nat
  exponent : Int
deriving DecidableEq, Repr, Inhabited

namespace Decimal

/-- The least number that rounds to infinity: half a unit above the largest
double. -/
def doubleLimit : Nat := Nat.pow 2 1024 - Nat.pow 2 970

/-- The double nearest to a natural number below the limit; of two that are
equally near, the one with the even significand. -/
def nearestDouble (n : Nat) : Nat :=
  let unit := Nat.pow 2 (n.log2 - 52)
  let low := n / unit
  let rest := n % unit
  if unit < 2 * rest ∨ (unit = 2 * rest ∧ low % 2 = 1) then (low + 1) * unit else low * unit

/-- The largest power of ten that is a double. -/
def maxPower : Nat := 308

/-- The value of a run of decimal digits. -/
def ofDigits (digits : List Char) : Nat :=
  digits.foldl (fun value c => 10 * value + (c.toNat - 48)) 0

/-- Whether rounding the magnitude to a double gives infinity.  The number of
digits before the point settles all but the numbers near the limit, so no large
power is computed. -/
def overflows (d : Decimal) : Bool :=
  let places : Int := d.digits.repr.length + d.exponent
  if d.digits = 0 then false
  else if places > 310 then true
  else if places < 300 then false
  else
    decide (doubleLimit * Nat.pow 10 (-d.exponent).toNat ≤
      d.digits * Nat.pow 10 d.exponent.toNat)

/-- The leading digits that fit 64 bits, and the exponent that goes with them.
Nineteen digits always fit and twenty may. -/
def leading (d : Decimal) : Nat × Int :=
  let dropped := d.digits.repr.length - 20
  let head := d.digits / Nat.pow 10 dropped
  if head < UInt64.size then (head, d.exponent + dropped)
  else (head / 10, d.exponent + dropped + 1)

/-- Whether scaling the leading digits gives infinity.  Scaling down never
does, and scaling up by more than the largest power always does. -/
def overflowsScaled (d : Decimal) : Bool :=
  let (head, exponent) := d.leading
  if head = 0 ∨ exponent < 0 then false
  else if maxPower < exponent then true
  else
    decide (doubleLimit ≤ nearestDouble head * nearestDouble (Nat.pow 10 exponent.toNat))

end Decimal

end Emitter
