import BulkWrite.Json.Reader
import BulkWrite.Update

/-!
Rows and update specs given as JSON. A scalar is a bound value, and an object whose only member is
`$raw` is a raw expression. The first item that does not fit decides the error.
-/
namespace BulkWrite.Input

inductive Expectation where
  | rows
  | row
  | update
  | updateItem
  | scalar
  | scalarOrRaw
  deriving DecidableEq, Inhabited

def Expectation.name : Expectation → String
  | rows => "an object or an array of objects"
  | row => "an object"
  | update => "an object or an array"
  | updateItem => "a column name or an object"
  | scalar => "a scalar"
  | scalarOrRaw => "a scalar or \x7b\"$raw\": \"<sql>\"\x7d"

inductive InputError where
  | notJson (text : String)
  | unexpected (expected : Expectation) (found : Json.Kind)
  | integerOutOfRange (n : Int)
  deriving DecidableEq, Inhabited

/-- `jsonFault` says what is wrong with a text that is no JSON. -/
def InputError.message (jsonFault : String → String) : InputError → String
  | notJson text => "invalid JSON: " ++ jsonFault text
  | unexpected expected found => "expected " ++ expected.name ++ ", found " ++ found.name
  | integerOutOfRange n =>
    "integer " ++ toString n ++ " is out of range for a 64-bit signed value"

def rawKey : String := "$raw"

def integer (n : Int) : Except InputError Value :=
  if Int64.minValue.toInt ≤ n ∧ n ≤ Int64.maxValue.toInt then .ok (.bound (.int (.ofInt n)))
  else .error (.integerOutOfRange n)

def value : Json → Except InputError Value
  | .null => .ok (.bound .null)
  | .bool b => .ok (.bound (.bool b))
  | .number (.integer n) => integer n
  | .number (.real x) => .ok (.bound (.float x))
  | .string s => .ok (.bound (.text s))
  | .object [(key, .string sql)] =>
    if key = rawKey then .ok (.raw sql) else .error (.unexpected .scalarOrRaw .object)
  | .object _ => .error (.unexpected .scalarOrRaw .object)
  | .array _ => .error (.unexpected .scalar .array)

def cells (members : List (String × Json)) : Except InputError (List (String × Value)) :=
  members.mapM fun (column, json) => return (column, ← value json)

def row : Json → Except InputError Row
  | .object members => Row.ofList <$> cells members
  | other => .error (.unexpected .row other.kind)

/-- A single object is one row. -/
def rows : Json → Except InputError (List Row)
  | .array items => items.mapM row
  | .object members => return [← row (.object members)]
  | other => .error (.unexpected .rows other.kind)

def assignments (members : List (String × Json)) : Except InputError UpdateSpec :=
  return (← cells members).map fun (column, v) => .assign column v

/-- A string is a column that takes its inserted value, and an object is a list of assignments. -/
def updateItem : Json → Except InputError UpdateSpec
  | .string column => .ok [.inserted column]
  | .object members => assignments members
  | other => .error (.unexpected .updateItem other.kind)

def update : Json → Except InputError UpdateSpec
  | .array items => return (← items.mapM updateItem).flatten
  | .object members => assignments members
  | other => .error (.unexpected .update other.kind)

def json (text : String) : Except InputError Json :=
  match Json.parse? text with
  | some value => .ok value
  | none => .error (.notJson text)

def parseRows (text : String) : Except InputError (List Row) := json text >>= rows

def parseUpdate (text : String) : Except InputError UpdateSpec := json text >>= update

end BulkWrite.Input
