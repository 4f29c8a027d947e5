/-!
Values written to columns. A bound value travels beside the statement and a raw expression is part
of its text; `Value` keeps the two apart.
-/
namespace BulkWrite

/-- A value sent as a bind parameter. Equality is that of the data, so a NaN differs from itself and
the two zeros are equal. -/
inductive SqlValue where
  | null
  | bool (b : Bool)
  | int (n : Int64)
  | float (x : Float)
  | text (s : String)
  | blob (bytes : List UInt8)
  deriving DecidableEq, BEq, Inhabited

/-- What a row or an assignment gives to a column. -/
inductive Value where
  | bound (v : SqlValue)
  /-- SQL text that is trusted and written as it stands. -/
  | raw (sql : String)
  deriving DecidableEq, BEq, Inhabited

namespace Value

def isRaw : Value → Bool
  | bound _ => false
  | raw _ => true

def bound? : Value → Option SqlValue
  | bound v => some v
  | raw _ => none

@[simp] theorem bound?_bound (v : SqlValue) : (bound v).bound? = some v := rfl

@[simp] theorem bound?_raw (sql : String) : (raw sql).bound? = none := rfl

end Value

end BulkWrite
