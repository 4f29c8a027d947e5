import BulkWrite.Error
import BulkWrite.Row

/-!
The normal form of the rows of one statement. Values are bound by position and the header is taken
from the first row, so all rows list the same columns in the same order.
-/
namespace BulkWrite.Row

def sameColumns (r s : Row) : Bool := r.size == s.size && r.columns.all s.contains

/-- The first of `rows` whose columns are not those of `first`, and its index. -/
def firstMismatch? (first : Row) (rows : List Row) : Option (Row × Nat) :=
  rows.zipIdx.find? fun row => !row.1.sameColumns first

/-- Sorts the columns of each row and refuses rows that differ from the first one in the columns
they have. -/
def normalize (rows : List Row) : Except CompileError (List Row) :=
  match rows.map sorted with
  | [] => .error (.invalid .noRows)
  | first :: rest =>
    if first.isEmpty then .error (.invalid .noColumns)
    else match firstMismatch? first (first :: rest) with
      | none => .ok (first :: rest)
      | some (row, index) =>
        .error (.invalid (.columnMismatch index row.columns first.columns))

end BulkWrite.Row
