import BulkWrite.Row

/-!
What an upsert does to a row that exists already, and how such a row is recognised.
-/
namespace BulkWrite

/-- The columns of the unique constraint that decides whether a row exists, in the order in which
statements list them. -/
abbrev ConflictTarget := List String

inductive UpdateEntry where
  /-- The column takes the value that was about to be inserted. -/
  | inserted (column : String)
  | assign (column : String) (value : Value)
  deriving DecidableEq, BEq, Inhabited

def UpdateEntry.column : UpdateEntry → String
  | inserted column => column
  | assign column _ => column

def UpdateEntry.value? : UpdateEntry → Option Value
  | inserted _ => none
  | assign _ value => some value

/-- The assignments of an update clause, in order. Without any, existing rows are not updated and
stay in conflict. -/
abbrev UpdateSpec := List UpdateEntry

namespace UpdateSpec

/-- Every one of `columns` takes its inserted value. -/
def ofColumns (columns : List String) : UpdateSpec := columns.map .inserted

def ofRow (row : Row) : UpdateSpec := ofColumns row.columns

def columns (update : UpdateSpec) : List String := update.map UpdateEntry.column

def assignedValues (update : UpdateSpec) : List Value := update.filterMap UpdateEntry.value?

def mentions (update : UpdateSpec) (column : String) : Bool :=
  update.any fun entry => entry.column == column

@[simp] theorem assignedValues_nil : assignedValues [] = [] := rfl

@[simp] theorem columns_ofColumns (cs : List String) : columns (ofColumns cs) = cs := by
  simp [columns, ofColumns, Function.comp_def, UpdateEntry.column]

@[simp] theorem columns_append_inserted (update : UpdateSpec) (column : String) :
    columns (update ++ [.inserted column]) = columns update ++ [column] := by
  simp [columns, UpdateEntry.column]

@[simp] theorem assignedValues_ofColumns (cs : List String) :
    assignedValues (ofColumns cs) = [] := by
  simp [assignedValues, ofColumns, List.filterMap_map, Function.comp_def, UpdateEntry.value?]

theorem mentions_iff (update : UpdateSpec) (column : String) :
    update.mentions column = true ↔ column ∈ update.columns := by
  simp only [mentions, columns, List.any_eq_true, List.mem_map, beq_iff_eq]

end UpdateSpec

end BulkWrite
