import BulkWrite.Error
import BulkWrite.Text.Blank

/-!
The SQL dialects that statements are written in, and the driver names that select them. A name is
read up to surrounding white space and the case of ASCII letters.
-/
namespace BulkWrite

structure Quotes where
  opening : Char
  closing : Char
  deriving DecidableEq

/-- How a dialect says what happens to a row that exists already. -/
inductive ConflictStyle where
  /-- `INSERT ... ON CONFLICT`. -/
  | onConflict
  /-- `INSERT ... ON DUPLICATE KEY UPDATE` and `INSERT IGNORE`. -/
  | onDuplicateKey
  /-- `MERGE ... USING (VALUES ...)`. -/
  | merge
  deriving DecidableEq

inductive Dialect where
  | mySql
  | postgres
  | sqlite
  | sqlServer
  deriving DecidableEq, Inhabited

namespace Dialect

def all : List Dialect := [mySql, postgres, sqlite, sqlServer]

theorem mem_all (d : Dialect) : d ∈ all := by
  cases d <;> decide

def driverName : Dialect → String
  | mySql => "mysql"
  | postgres => "pgsql"
  | sqlite => "sqlite"
  | sqlServer => "sqlsrv"

def aliases : Dialect → List String
  | mySql => ["mariadb"]
  | postgres => ["postgres", "postgresql"]
  | sqlite => ["sqlite3"]
  | sqlServer => ["sqlserver", "mssql"]

def names (d : Dialect) : List String := d.driverName :: d.aliases

def quotes : Dialect → Quotes
  | mySql => ⟨'\x60', '\x60'⟩
  | postgres | sqlite => ⟨'"', '"'⟩
  | sqlServer => ⟨'[', ']'⟩

def conflictStyle : Dialect → ConflictStyle
  | mySql => .onDuplicateKey
  | postgres | sqlite => .onConflict
  | sqlServer => .merge

def placeholder (_ : Dialect) : String := "?"

/-- What a driver's name is compared by: its text without outer white space, in lower case. -/
def nameKey (name : String) : String :=
  .ofList ((Text.trim name.toList).map Char.toLower)

def ofName? (name : String) : Option Dialect :=
  all.find? fun d => d.names.contains (nameKey name)

def parse (name : String) : Except CompileError Dialect :=
  match ofName? name with
  | some d => .ok d
  | none => .error (.unsupportedDialect name)

end Dialect

end BulkWrite
