/-!
Decimals as floating-point numbers: a significand of at most 64 bits is rounded once and then scaled
by a power of ten, again with one rounding. A power below the range of floating-point numbers is
taken in steps of the smallest one in range.
-/
namespace BulkWrite.Decimal

def maxPower : Nat := 308

/-- The floating-point number nearest to `10 ^ n`. -/
def powerOfTen (n : Nat) : Float := .ofNat (Nat.pow 10 n)

/-- The number `x * 10 ^ e`, unless it is too large. -/
def scale? (x : Float) (e : Int) : Option Float :=
  if e < -(maxPower : Int) then
    if x == 0 then some x else scale? (x / powerOfTen maxPower) (e + maxPower)
  else if e < 0 then some (x / powerOfTen e.natAbs)
  else if e ≤ maxPower then
    let y := x * powerOfTen e.toNat
    if y.isInf then none else some y
  else if x == 0 then some x else none
termination_by (-e).toNat
decreasing_by simp only [maxPower] at *; omega

/-- Reads further `digits` into a significand for as long as it fits in 64 bits. Returns it with the
digits that are left. -/
def absorb (significand : Nat) : List Char → Nat × List Char
  | [] => (significand, [])
  | c :: digits =>
    let next := significand * 10 + (c.toNat - '0'.toNat)
    if next < UInt64.size then absorb next digits else (significand, c :: digits)

end BulkWrite.Decimal
