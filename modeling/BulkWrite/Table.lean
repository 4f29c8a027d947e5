import BulkWrite.Conflict
import BulkWrite.Row.Normal
import BulkWrite.Write

/-!
Compiling a write to one table: the request is checked, its rows are brought into normal form, the
dialect renders them, and the text is paired with its bindings. A request without rows has no
statement.
-/
namespace BulkWrite

structure Table where
  dialect : Dialect
  name : String
  deriving DecidableEq, Inhabited

namespace Table

def forDriver (driver name : String) : Except CompileError Table :=
  (Dialect.parse driver).map fun d => ⟨d, name⟩

def insertStatement (t : Table) (rows : List Row) : Except CompileError Statement := do
  let rows ← Row.normalize rows
  Statement.pair (t.dialect.insert t.name rows) (bindings rows [])

/-- An empty update spec asks for a plain insert, which needs no target. The spec defaults to the
columns of the first row in normal form. -/
def upsertStatement (t : Table) (rows : List Row) (target : ConflictTarget)
    (update : Option UpdateSpec) : Except CompileError Statement :=
  if update = some [] then t.insertStatement rows
  else if target.isEmpty then .error (.invalid .noConflictTarget)
  else do
    let rows ← Row.normalize rows
    let update := update.getD (.ofColumns (Row.header rows))
    Statement.pair (t.dialect.upsert t.name rows target update) (bindings rows update)

/-- Only a `MERGE` needs a target. -/
def insertIgnoreStatement (t : Table) (rows : List Row) (target : ConflictTarget) :
    Except CompileError Statement :=
  if target.isEmpty && t.dialect.conflictStyle == .merge then .error (.invalid .noMergeTarget)
  else do
    let rows ← Row.normalize rows
    Statement.pair (t.dialect.insertIgnore t.name rows target) (bindings rows [])

def statement (t : Table) : Write → Except CompileError Statement
  | .insert rows => t.insertStatement rows
  | .upsert rows target update => t.upsertStatement rows target update
  | .insertIgnore rows target => t.insertIgnoreStatement rows (target.getD [])

def compile (t : Table) (w : Write) : Except CompileError (Option Statement) :=
  if w.rows.isEmpty then .ok none else (t.statement w).map some

end Table

end BulkWrite
