import BulkWrite.Assignment

/-!
`MERGE` for SQL Server: the rows become a constant table, which is joined to the target table on the
columns of the conflict target. Without a branch for matched rows, existing rows are left alone.
-/
namespace BulkWrite.Merge

def dialect : Dialect := .sqlServer

/-- The candidate row and the existing row agree on `column`. -/
def equation (table column : String) : String :=
  dialect.quote (sourceAlias ++ "." ++ column) ++ " = " ++ dialect.quote (table ++ "." ++ column)

def condition (table : String) (target : ConflictTarget) : String :=
  " AND ".intercalate (target.map (equation table))

def source (table : String) (rows : List Row) (target : ConflictTarget) : Fragment :=
  .ofText ("MERGE " ++ dialect.quote table ++ " USING (VALUES ") ++ dialect.valueGroups rows ++
    .ofText (") " ++ dialect.quote sourceAlias ++ " (" ++ dialect.columnList (Row.header rows) ++
      ") ON " ++ condition table target ++ " ")

/-- What happens to a row that exists; nothing if there are no assignments. -/
def whenMatched (update : UpdateSpec) : Fragment :=
  if update.isEmpty then .empty
  else .ofText "WHEN MATCHED THEN UPDATE SET " ++ dialect.assignments update ++ .ofText " "

def whenNotMatched (columns : List String) : Fragment :=
  let columns := dialect.columnList columns
  .ofText ("WHEN NOT MATCHED THEN INSERT (" ++ columns ++ ") VALUES (" ++ columns ++ ");")

def statement (table : String) (rows : List Row) (target : ConflictTarget) (update : UpdateSpec) :
    Fragment :=
  source table rows target ++ whenMatched update ++ whenNotMatched (Row.header rows)

end BulkWrite.Merge
