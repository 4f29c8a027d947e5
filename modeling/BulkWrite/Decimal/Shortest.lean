/-!
The shortest decimal that reads back as a given binary floating-point number. Every decimal in the
interval of reals that round to the number reads back, so the search takes the coarsest grid of
multiples of a power of ten that has a point there.
-/
namespace BulkWrite.Decimal

/-- The number `digits * 10 ^ exponent`. -/
structure Scientific where
  digits : Nat
  exponent : Int
  deriving DecidableEq, Inhabited

/-- A floating-point number by its parts; a finite one has the size `mantissa * 2 ^ exponent`. -/
inductive Parts where
  | nan
  | infinite (negative : Bool)
  | finite (negative : Bool) (mantissa : Nat) (exponent : Int)
  deriving DecidableEq, Inhabited

/-- The leading bit of a mantissa, which the pattern leaves out. -/
def leadingBit : Nat := 0x10000000000000

def minExponent : Int := -1074

def Parts.ofBits (bits : UInt64) : Parts :=
  let negative := bits >>> 63 == 1
  let exponent := ((bits >>> 52) &&& 0x7FF).toNat
  let fraction := (bits &&& 0xFFFFFFFFFFFFF).toNat
  if exponent = 0x7FF then if fraction = 0 then infinite negative else nan
  else if exponent = 0 then finite negative fraction minExponent
  else finite negative (leadingBit + fraction) (minExponent + (exponent - 1 : Nat))

/-- The distance from `m * 2 ^ q` to the lower end of its interval, in quarters of `2 ^ q`. It is
halved at a power of two, below which numbers lie twice as close. -/
def gapBelow (m : Nat) (q : Int) : Nat :=
  if m = leadingBit ∧ minExponent < q then 1 else 2

/-- The multiple of `10 ^ k` that reads back as `m * 2 ^ q` and is nearest to it, if there is one.
Of two that are equally near the larger is taken. -/
def nearestMultiple? (m : Nat) (q k : Int) : Option Nat :=
  -- `x / 4 * 2 ^ q` and `y * 10 ^ k` compare as `x * a` and `y * b`
  let a := Nat.pow 2 (q - 2).toNat * Nat.pow 10 (-k).toNat
  let b := Nat.pow 2 (2 - q).toNat * Nat.pow 10 k.toNat
  let low := (4 * m - gapBelow m q) * a
  let high := (4 * m + 2) * a
  let readsBack (y : Nat) : Bool :=
    if m % 2 = 0 then decide (low ≤ y * b) && decide (y * b ≤ high)
    else decide (low < y * b) && decide (y * b < high)
  let below := 4 * m * a / b
  let remainder := 4 * m * a % b
  match readsBack below, readsBack (below + 1) with
  | true, true => some (if 2 * remainder < b then below else below + 1)
  | true, false => some below
  | false, true => some (below + 1)
  | false, false => none

/-- The powers of ten that can be the last place of a shortest decimal, the largest first. -/
def places : List Int := (List.range 650).map fun i : Nat => (309 : Int) - i

def shortest (m : Nat) (q : Int) : Scientific :=
  (places.findSome? fun k => (nearestMultiple? m q k).map fun y => ⟨y, k⟩).getD ⟨0, 0⟩

end BulkWrite.Decimal
