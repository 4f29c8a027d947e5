import BulkWrite.Update

/-!
Requests to write rows.
-/
namespace BulkWrite

inductive Write where
  | insert (rows : List Row)
  /-- Without an update spec every inserted column is updated; an empty one only inserts. -/
  | upsert (rows : List Row) (target : ConflictTarget) (update : Option UpdateSpec)
  | insertIgnore (rows : List Row) (target : Option ConflictTarget)
  deriving DecidableEq, Inhabited

def Write.rows : Write → List Row
  | insert rows | upsert rows _ _ | insertIgnore rows _ => rows

end BulkWrite
