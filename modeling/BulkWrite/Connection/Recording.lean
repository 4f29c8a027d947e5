import BulkWrite.Connection

/-!
A connection without a database, which keeps the statements it receives.
-/
namespace BulkWrite.Connection

/-- Answers as `respond` says of the earlier statements and the new one. The state holds the
received statements, the earliest first. -/
def recording (respond : List Statement → Statement → Except StorageError Nat) :
    Connection (StateM (List Statement)) where
  execute statement := do
    let earlier ← get
    set (earlier ++ [statement])
    return respond earlier statement

end BulkWrite.Connection
