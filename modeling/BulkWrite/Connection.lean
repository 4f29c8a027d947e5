import BulkWrite.Table

/-!
Writing to a table over a connection. A write is compiled first; only a statement reaches the
connection, whose count or refusal is the result.
-/
namespace BulkWrite

inductive Rejection where
  | uniqueViolation
  | other
  deriving DecidableEq, Inhabited

inductive StorageError where
  | rejected (kind : Rejection) (message : String)
  | noRow
  /-- Anything else that went wrong on the way, in its own words. -/
  | failed (message : String)
  deriving DecidableEq, Inhabited

inductive WriteError where
  | compile (cause : CompileError)
  | storage (cause : StorageError)
  deriving DecidableEq, Inhabited

def StorageError.message : StorageError → String
  | rejected _ message => "error returned from database: " ++ message
  | noRow => "no rows returned by a query that expected to return at least one row"
  | failed message => message

namespace WriteError

def message : WriteError → String
  | compile cause => cause.message
  | storage cause => "database error: " ++ cause.message

def isUniqueViolation : WriteError → Bool
  | storage (.rejected .uniqueViolation _) => true
  | _ => false

end WriteError

/-- Takes statements and answers each with the number of affected rows. -/
structure Connection (m : Type → Type) where
  execute : Statement → m (Except StorageError Nat)

def Table.write {m : Type → Type} [Monad m] (t : Table) (connection : Connection m) (w : Write) :
    m (Except WriteError Nat) :=
  match t.compile w with
  | .error cause => pure (.error (.compile cause))
  | .ok none => pure (.ok 0)
  | .ok (some statement) => do
    let answer ← connection.execute statement
    return answer.mapError .storage

end BulkWrite
