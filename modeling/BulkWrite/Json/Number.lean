import BulkWrite.Decimal.Scale
import BulkWrite.Json

/-!
JSON numbers. A literal is split into its parts first; an integer literal keeps its exact value if
it fits in 64 bits, and every other literal is rounded.
-/
namespace BulkWrite.Json

structure NumberLiteral where
  negative : Bool
  whole : List Char
  /-- Empty if there is no decimal point. -/
  fraction : List Char
  exponent : Option Int
  deriving DecidableEq

namespace NumberLiteral

def digitsValue (digits : List Char) : Nat :=
  digits.foldl (fun n c => n * 10 + (c.toNat - '0'.toNat)) 0

def digits? (cs : List Char) : Option (List Char × List Char) :=
  let digits := cs.takeWhile Char.isDigit
  if digits.isEmpty then none else some (digits, cs.dropWhile Char.isDigit)

def whole? (cs : List Char) : Option (List Char × List Char) :=
  match digits? cs with
  | some ('0' :: _ :: _, _) => none
  | other => other

def fraction? : List Char → Option (List Char × List Char)
  | '.' :: cs => digits? cs
  | cs => some ([], cs)

def exponentDigits? : List Char → Option (Int × List Char)
  | '-' :: cs => (digits? cs).map fun (digits, rest) => (-(digitsValue digits : Int), rest)
  | '+' :: cs => (digits? cs).map fun (digits, rest) => (digitsValue digits, rest)
  | cs => (digits? cs).map fun (digits, rest) => (digitsValue digits, rest)

def exponent? : List Char → Option (Option Int × List Char)
  | [] => some (none, [])
  | c :: cs =>
    if c = 'e' ∨ c = 'E' then (exponentDigits? cs).map fun (e, rest) => (some e, rest)
    else some (none, c :: cs)

def unsigned? (negative : Bool) (cs : List Char) : Option NumberLiteral := do
  let (whole, cs) ← whole? cs
  let (fraction, cs) ← fraction? cs
  let (exponent, cs) ← exponent? cs
  if cs.isEmpty then some ⟨negative, whole, fraction, exponent⟩ else none

def ofChars? : List Char → Option NumberLiteral
  | '-' :: cs => unsigned? true cs
  | cs => unsigned? false cs

/-- Neither a decimal point nor an exponent is written. -/
def isInteger (l : NumberLiteral) : Bool := l.fraction.isEmpty && l.exponent.isNone

/-- Digits of the whole part that the significand has no room for raise the exponent, and those of
the fraction are dropped. -/
def real? (l : NumberLiteral) : Option Float :=
  let (significand, unreadWhole) := Decimal.absorb 0 l.whole
  let (significand, unreadFraction) := Decimal.absorb significand l.fraction
  let exponent : Int := l.exponent.getD 0 + unreadWhole.length -
    (l.fraction.length - unreadFraction.length : Nat)
  (Decimal.scale? (.ofNat significand) exponent).map fun x => if l.negative then -x else x

/-- The value of an integer literal that fits in 64 bits. Negative zero is no integer. -/
def integer? (l : NumberLiteral) : Option Int :=
  let n := digitsValue l.whole
  if l.negative then
    if 0 < n ∧ Int64.minValue.toInt ≤ -(n : Int) then some (-(n : Int)) else none
  else if n < UInt64.size then some n else none

/-- There is no value for a literal that is too large. -/
def value? (l : NumberLiteral) : Option Number :=
  match if l.isInteger then l.integer? else none with
  | some n => some (.integer n)
  | none => l.real?.map .real

end NumberLiteral

def number? (cs : List Char) : Option Number :=
  (NumberLiteral.ofChars? cs).bind NumberLiteral.value?

end BulkWrite.Json
