import BulkWrite.Insert

/-!
The assignments of an update clause. An entry without a value of its own refers to the value that
was about to be inserted, which each style of conflict handling names in its own way.
-/
namespace BulkWrite

/-- The table of candidate rows in a `MERGE`. -/
def sourceAlias : String := "upsert_source"

namespace Dialect

def insertedValue (d : Dialect) (column : String) : String :=
  match d.conflictStyle with
  | .onConflict => d.quote "excluded" ++ "." ++ d.quote column
  | .onDuplicateKey => "VALUES(" ++ d.quote column ++ ")"
  | .merge => d.quote (sourceAlias ++ "." ++ column)

def assignment (d : Dialect) : UpdateEntry → Fragment
  | .inserted column => .ofText (d.quote column ++ " = " ++ d.insertedValue column)
  | .assign column value => .ofText (d.quote column ++ " = ") ++ d.parameter value

def assignments (d : Dialect) (update : UpdateSpec) : Fragment :=
  .join ", " (update.map d.assignment)

end Dialect

end BulkWrite
