import BulkWrite.Identifier
import BulkWrite.Statement

/-!
The plain multi-row `INSERT`. The columns are those of the first row, and each row gives one
parenthesised group of parameters.
-/
namespace BulkWrite

/-- The columns that the values of `rows` stand under. -/
def Row.header (rows : List Row) : List String :=
  (rows.head?.map columns).getD []

namespace Dialect

def parameter (d : Dialect) : Value → Fragment
  | .bound _ => .slot d.placeholder
  | .raw sql => .ofText sql

def valueGroup (d : Dialect) (row : Row) : Fragment :=
  (Fragment.join ", " (row.values.map d.parameter)).parenthesized

def valueGroups (d : Dialect) (rows : List Row) : Fragment :=
  .join ", " (rows.map d.valueGroup)

def insertWith (d : Dialect) (verb table : String) (rows : List Row) : Fragment :=
  .ofText (verb ++ " INTO " ++ d.quote table ++ " (" ++ d.columnList (Row.header rows) ++
    ") VALUES ") ++ d.valueGroups rows

def insert (d : Dialect) (table : String) (rows : List Row) : Fragment :=
  d.insertWith "INSERT" table rows

end Dialect

end BulkWrite
