import BulkWrite.CommandLine.Invocation
import BulkWrite.Connection
import BulkWrite.Input
import BulkWrite.Value.Literal

/-!
The effect of a call: the text it prints and its exit code. The first fault decides, in the order
driver, database, rows, update spec, write. What is logged for debugging alone is left out.
-/
namespace BulkWrite.CommandLine

inductive CommandError where
  | compile (cause : CompileError)
  | input (cause : Input.InputError)
  | notWritable (dialect : Dialect)
  | opening (cause : StorageError)
  | writing (cause : WriteError)
  deriving DecidableEq, Inhabited

namespace CommandError

def message (jsonFault : String → String) : CommandError → String
  | compile cause => cause.message
  | input cause => cause.message jsonFault
  | notWritable dialect =>
    "only sqlite databases can be written to; use \x60compile\x60 to print SQL for " ++
      dialect.driverName
  | opening cause => cause.message
  | writing cause => cause.message

/-- Whether the error came from the reader of JSON or from a database. -/
def isForeign : CommandError → Bool
  | input (.notJson _) | opening _ | writing (.storage _) => true
  | _ => false

end CommandError

/-- What the program rests on: databases that can be opened, and the words of others about errors
that came from them. -/
structure Backend (m : Type → Type) where
  connect : String → m (Except StorageError (Connection m))
  jsonFault : String → String
  /-- What is printed below the message of an error. -/
  causes : CommandError → String

structure Outcome where
  code : Nat
  stdout : String
  stderr : String
  deriving DecidableEq, Inhabited

namespace Outcome

def printed (text : String) : Outcome := ⟨0, text, ""⟩

def failed (report : String) : Outcome := ⟨1, "", "Error: " ++ report ++ "\n"⟩

end Outcome

/-- A line of the log, in which colours are off. -/
def logLine (message : String) : String := " INFO " ++ message ++ "\n"

def bindingsText (values : List SqlValue) : String :=
  "bindings: [" ++ ", ".intercalate (values.map SqlValue.literal) ++ "]"

def statementText : Option Statement → String
  | some statement => statement.sql ++ "\n" ++ bindingsText statement.bindings ++ "\n"
  | none => logLine "No rows given, nothing to compile."

def affectedText (count : Nat) : String :=
  logLine (toString count ++ " row(s) affected.") ++ toString count ++ "\n"

section
variable {m : Type → Type}

namespace Backend

def report (b : Backend m) (e : CommandError) : String :=
  e.message b.jsonFault ++ if e.isForeign then b.causes e else ""

def outcome (b : Backend m) : Except CommandError String → Outcome
  | .ok text => .printed text
  | .error e => .failed (b.report e)

end Backend

namespace Invocation

/-- The request in the arguments. No target columns are no target. -/
def write (i : Invocation) : Except Input.InputError Write := do
  let rows ← Input.parseRows i.rows
  match i.mode with
  | .upsert update => return .upsert rows i.target (← update.mapM Input.parseUpdate)
  | .insertIgnore => return .insertIgnore rows (if i.target.isEmpty then none else some i.target)

variable [Monad m]

/-- The connection to send the write to, if it is to be sent. -/
def connection? (b : Backend m) (i : Invocation) (dialect : Dialect) :
    m (Except CommandError (Option (Connection m))) :=
  if !i.executes then pure (.ok none)
  else if dialect ≠ .sqlite then pure (.error (.notWritable dialect))
  else return ((← b.connect i.database).mapError .opening).map some

/-- The text to print for a write: its statement, or the number of rows that sending it affected. -/
def answer (t : Table) (w : Write) : Option (Connection m) → m (Except CommandError String)
  | none => pure (((t.compile w).mapError .compile).map statementText)
  | some connection => return ((← t.write connection w).mapError .writing).map affectedText

def result (b : Backend m) (i : Invocation) : m (Except CommandError String) :=
  match Dialect.parse i.driver with
  | .error e => pure (.error (.compile e))
  | .ok dialect => do
    match ← i.connection? b dialect with
    | .error e => return .error e
    | .ok connection? =>
      match i.write with
      | .error e => return .error (.input e)
      | .ok w => answer ⟨dialect, i.table⟩ w connection?

def run (b : Backend m) (i : Invocation) : m Outcome :=
  return b.outcome (← i.result b)

end Invocation

def versionText : String := "oxide-upsert 0.1.0\n"

def Call.run [Monad m] (b : Backend m) : Call → m Outcome
  | version => pure (.printed versionText)
  | write invocation => invocation.run b

end

end BulkWrite.CommandLine
