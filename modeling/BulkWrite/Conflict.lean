import BulkWrite.Merge
import BulkWrite.Text.Replace

/-!
Inserts that meet existing rows: `upsert` updates them and `insertIgnore` leaves them alone.
-/
namespace BulkWrite.Dialect

def upsert (d : Dialect) (table : String) (rows : List Row) (target : ConflictTarget)
    (update : UpdateSpec) : Fragment :=
  match d.conflictStyle with
  | .onConflict =>
    d.insert table rows ++
      .ofText (" ON CONFLICT (" ++ d.columnList target ++ ") DO UPDATE SET ") ++
      d.assignments update
  | .onDuplicateKey =>
    d.insert table rows ++ .ofText " ON DUPLICATE KEY UPDATE " ++ d.assignments update
  | .merge => Merge.statement table rows target update

/-- The first `INSERT` of a statement becomes `INSERT IGNORE`. -/
def ignoring (f : Fragment) : Fragment :=
  { f with text := .ofList (Text.replaceFirst "INSERT".toList "INSERT IGNORE".toList f.text.toList) }

def insertIgnore (d : Dialect) (table : String) (rows : List Row) (target : ConflictTarget) :
    Fragment :=
  match d.conflictStyle with
  | .onConflict => d.insert table rows ++ .ofText " ON CONFLICT DO NOTHING"
  | .onDuplicateKey => ignoring (d.insert table rows)
  | .merge => Merge.statement table rows target []

theorem ignoring_insert (d : Dialect) (table : String) (rows : List Row) :
    ignoring (d.insert table rows) = d.insertWith "INSERT IGNORE" table rows := by
  apply Fragment.ext
  · apply String.toList_inj.1
    simp only [ignoring, insert, insertWith, Fragment.text_append, Fragment.text_ofText,
      String.toList_ofList, String.toList_append, List.append_assoc]
    exact Text.replaceFirst_append (by decide) _ _
  · rfl

end BulkWrite.Dialect
