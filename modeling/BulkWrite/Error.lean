/-!
Why a write cannot be compiled. None of these causes comes from a database: each is found before a
statement exists.
-/
namespace BulkWrite

/-- A fault of the request itself. Column lists are sorted. -/
inductive Violation where
  | noRows
  | noColumns
  /-- The columns of the row at `index` differ from those of the first row. -/
  | columnMismatch (index : Nat) (found expected : List String)
  | noConflictTarget
  /-- Skipping existing rows by `MERGE` needs columns to match on. -/
  | noMergeTarget
  deriving DecidableEq, Inhabited

inductive CompileError where
  | invalid (violation : Violation)
  /-- Holds the driver's name as it was given. -/
  | unsupportedDialect (name : String)
  | misbound (placeholders bindings : Nat)
  deriving DecidableEq, Inhabited

namespace Violation

def message : Violation → String
  | noRows => "no rows to write"
  | noColumns => "row 0 has no columns"
  | columnMismatch index found expected =>
    "row " ++ toString index ++ " has columns (" ++ ", ".intercalate found ++
      ") but row 0 has (" ++ ", ".intercalate expected ++ ")"
  | noConflictTarget => "upsert requires at least one conflict target column"
  | noMergeTarget => "MERGE-based insert ignore requires a conflict target"

end Violation

namespace CompileError

def message : CompileError → String
  | invalid violation => "validation error: " ++ violation.message
  | unsupportedDialect name => "unsupported dialect: " ++ name
  | misbound placeholders bindings =>
    "statement has " ++ toString placeholders ++ " placeholders but " ++ toString bindings ++
      " bindings"

end CompileError

end BulkWrite
