import BulkWrite.CommandLine.Options
import BulkWrite.Update

/-!
What the program is called to do: to show its version, or to write rows. Options that hold for every
command may stand before it or after it, where the later place wins; the environment comes last.
-/
namespace BulkWrite.CommandLine

/-- What becomes of rows that exist already. The update spec is JSON text. -/
inductive Mode where
  | upsert (update : Option String)
  | insertIgnore
  deriving DecidableEq, Inhabited

structure Invocation where
  driver : String
  database : String
  verbose : Bool
  /-- The statement is sent to the database and not printed. -/
  executes : Bool
  table : String
  /-- JSON text. -/
  rows : String
  target : ConflictTarget
  mode : Mode
  deriving DecidableEq, Inhabited

inductive CommandName where
  | compile
  | upsert
  | insertIgnore
  deriving DecidableEq, Inhabited

namespace CommandName

def name : CommandName → String
  | compile => "compile"
  | upsert => "upsert"
  | insertIgnore => "insert-ignore"

def ofName? (name : String) : Option CommandName :=
  [compile, upsert, insertIgnore].find? fun c => c.name == name

end CommandName

def commonOptions : List OptionName := [.driver, .database, .verbose]

def CommandName.options : CommandName → List OptionName
  | compile => commonOptions ++ [.table, .rows, .target, .update, .ignore]
  | upsert => commonOptions ++ [.table, .rows, .target, .update]
  | insertIgnore => commonOptions ++ [.table, .rows, .target]

def OptionName.environmentName? : OptionName → Option String
  | driver => some "UPSERT_DRIVER"
  | database => some "DATABASE_URL"
  | _ => none

/-- The value of a common option: from after the command, before it, or from the environment. -/
def commonValue? (environment : List (String × String)) (before after : Given) (o : OptionName) :
    Option String :=
  after.value? o <|> before.value? o <|> o.environmentName?.bind (environment.lookup ·)

/-- An update spec and the wish to leave existing rows alone exclude each other. -/
def mode? (command : CommandName) (given : Given) : Option Mode :=
  match command with
  | .insertIgnore => some .insertIgnore
  | _ =>
    match given.has .ignore, given.value? .update with
    | true, none => some .insertIgnore
    | true, some _ => none
    | false, update => some (.upsert update)

def columnNames (text : String) : List String := (text.toList.splitOn ',').map String.ofList

namespace Invocation

/-- Reads the command and its options, with the options that stand before it. There is no result if
the arguments do not fit. -/
def parse? (environment : List (String × String)) (before : Given) :
    List String → Option Invocation
  | [] => none
  | name :: args => do
    let command ← CommandName.ofName? name
    let (after, rest) ← readOptions? command.options args
    if (rest = [] ∨ rest = ["--"]) ∧ after.isValid then
      return {
        driver := (commonValue? environment before after .driver).getD "sqlite"
        database := (commonValue? environment before after .database).getD "sqlite:db.sqlite3"
        verbose := before.has .verbose || after.has .verbose
        executes := command != .compile
        table := ← after.value? .table
        rows := ← after.value? .rows
        target := (after.values .target).flatMap columnNames
        mode := ← mode? command after }
    else none

end Invocation

inductive Call where
  | version
  | write (invocation : Invocation)
  deriving DecidableEq, Inhabited

def Call.parse? (environment : List (String × String)) (args : List String) : Option Call := do
  let (before, rest) ← readOptions? (commonOptions ++ [.version]) args
  if !before.isValid then none
  else if before.has .version then return .version
  else return .write (← Invocation.parse? environment before rest)

end BulkWrite.CommandLine
