import BulkWrite.Connection

/-!
Models: tables with columns for the times at which a row was created and last updated. A write to a
model fills these columns in new rows and refreshes the update time of existing ones.
-/
namespace BulkWrite

structure Model where
  table : String
  createdAt? : Option String := some "created_at"
  updatedAt? : Option String := some "updated_at"
  usesTimestamps : Bool := true
  deriving DecidableEq, Inhabited

namespace Model

def stampColumns (model : Model) : List String :=
  if model.usesTimestamps then model.createdAt?.toList ++ model.updatedAt?.toList else []

def refreshColumn? (model : Model) : Option String :=
  if model.usesTimestamps then model.updatedAt? else none

def fill (now : String) (columns : List String) (row : Row) : Row :=
  columns.foldl (fun r c => if r.contains c then r else r.set c (.bound (.text now))) row

def stamp (model : Model) (now : String) (row : Row) : Row :=
  fill now model.stampColumns row

theorem fill_eq_self {now : String} {columns : List String} {row : Row}
    (h : ∀ column ∈ columns, column ∈ row.columns) : fill now columns row = row := by
  induction columns with
  | nil => rfl
  | cons column columns ih =>
    have hcontains := (row.contains_iff column).mpr (h column List.mem_cons_self)
    rw [fill, List.foldl_cons, if_pos hcontains]
    exact ih fun other hother => h other (List.mem_cons_of_mem column hother)

theorem stamp_eq_self {model : Model} {row : Row}
    (h : ∀ column ∈ model.stampColumns, column ∈ row.columns) (now : String) :
    model.stamp now row = row :=
  fill_eq_self h

/-- Adds the refreshed column to an update clause that does not mention it. An empty clause stays
empty: it asks for no update. -/
def refresh (model : Model) (update : UpdateSpec) : UpdateSpec :=
  match model.refreshColumn? with
  | none => update
  | some column =>
    if update.isEmpty || update.mentions column then update else update ++ [.inserted column]

/-- The update spec defaults to the columns that the caller gave to the first row. -/
def upsert (model : Model) (now : String) (rows : List Row) (target : ConflictTarget)
    (update : Option UpdateSpec) : Write :=
  .upsert (rows.map (model.stamp now)) target
    (some (model.refresh (update.getD (.ofColumns (Row.header rows)))))

def insertIgnore (model : Model) (now : String) (rows : List Row)
    (target : Option ConflictTarget) : Write :=
  .insertIgnore (rows.map (model.stamp now)) target

end Model

/-- A model's table on a connection, and the clock that gives the time of a write. -/
structure ModelTable (m : Type → Type) where
  model : Model
  dialect : Dialect
  connection : Connection m
  clock : m String

namespace ModelTable

variable {m : Type → Type}

def table (t : ModelTable m) : Table := ⟨t.dialect, t.model.table⟩

variable [Monad m]

/-- The time of a write. The clock is read once for all rows; a model without timestamps and a write
without rows leave it alone. -/
def time (t : ModelTable m) (rows : List Row) : m String :=
  if t.model.usesTimestamps && !rows.isEmpty then t.clock else pure ""

def upsert (t : ModelTable m) (rows : List Row) (target : ConflictTarget)
    (update : Option UpdateSpec) : m (Except WriteError Nat) := do
  let now ← t.time rows
  t.table.write t.connection (t.model.upsert now rows target update)

def insertIgnore (t : ModelTable m) (rows : List Row) (target : Option ConflictTarget) :
    m (Except WriteError Nat) := do
  let now ← t.time rows
  t.table.write t.connection (t.model.insertIgnore now rows target)

end ModelTable

end BulkWrite
