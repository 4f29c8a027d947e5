import BulkWrite.Decimal.Shortest

/-!
Decimals written out in full: never with an exponent, and with a fraction only where there is one.
-/
namespace BulkWrite.Decimal

/-- The digits of `s` with the decimal point in its place. -/
def Scientific.positional (s : Scientific) : List Char :=
  let digits := Nat.toDigits 10 s.digits
  let fractional := (-s.exponent).toNat
  if fractional = 0 then digits ++ List.replicate s.exponent.toNat '0'
  else
    let digits := List.replicate (fractional + 1 - digits.length) '0' ++ digits
    digits.take (digits.length - fractional) ++ '.' :: digits.drop (digits.length - fractional)

def sign (negative : Bool) : List Char := if negative then ['-'] else []

def Parts.text : Parts → List Char
  | nan => ['N', 'a', 'N']
  | infinite negative => sign negative ++ ['i', 'n', 'f']
  | finite negative m q =>
    sign negative ++ if m = 0 then ['0'] else (shortest m q).positional

def floatText (x : Float) : String := .ofList (Parts.ofBits x.toBits).text

end BulkWrite.Decimal
