import BulkWrite.Connection

/-!
Sessions: calls on one table over one connection, one after the other. A call carries out a write, or
shows the statement that the write would send.
-/
namespace BulkWrite

inductive Call where
  | write (w : Write)
  | preview (w : Write)
  deriving DecidableEq, Inhabited

inductive Reply where
  | written (result : Except WriteError Nat)
  | previewed (result : Except WriteError (Option Statement))

def Reply.isUniqueViolation : Reply → Bool
  | written (.error e) | previewed (.error e) => e.isUniqueViolation
  | written (.ok _) | previewed (.ok _) => false

namespace Table

def preview (t : Table) (w : Write) : Except WriteError (Option Statement) :=
  (t.compile w).mapError .compile

variable {m : Type → Type} [Monad m]

def answer (t : Table) (connection : Connection m) : Call → m Reply
  | .write w => return .written (← t.write connection w)
  | .preview w => return .previewed (t.preview w)

/-- A call that fails does not end the session. -/
def answerAll (t : Table) (connection : Connection m) (calls : List Call) : m (List Reply) :=
  calls.mapM (t.answer connection)

end Table

end BulkWrite
