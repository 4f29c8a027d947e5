/-!
JSON values. An object keeps the order of its members. What a number is read as is a parameter, so
that a reader can also keep the literals it has seen.
-/
namespace BulkWrite

/-- A number as it was written: an integer that fits in 64 bits, signed or unsigned, is exact, and
any other number is a floating-point one. -/
inductive Json.Number where
  | integer (n : Int)
  | real (x : Float)
  deriving DecidableEq, Inhabited

/-- A value with numbers in `ν`. -/
inductive Json.Tree (ν : Type) where
  | null
  | bool (b : Bool)
  | number (n : ν)
  | string (s : String)
  | array (items : List (Json.Tree ν))
  | object (members : List (String × Json.Tree ν))
  deriving Inhabited

abbrev Json := Json.Tree Json.Number

namespace Json

inductive Kind where
  | null
  | boolean
  | number
  | string
  | array
  | object
  deriving DecidableEq, Inhabited

def Kind.name : Kind → String
  | null => "null"
  | boolean => "boolean"
  | number => "number"
  | string => "string"
  | array => "array"
  | object => "object"

def Tree.kind {ν : Type} : Tree ν → Kind
  | null => .null
  | bool _ => .boolean
  | number _ => .number
  | string _ => .string
  | array _ => .array
  | object _ => .object

end Json

end BulkWrite
