import BulkWrite.Connection.Recording
import BulkWrite.Model

/-!
What reaches a connection. A write sends the statement that its table compiles for it, once and at
the end of what was sent before, and sends nothing if there is no statement. Main statements:
`run_write` and `sends_upsert_iff`.
-/
namespace BulkWrite

/-- Beginning with the statements of `log`, the action sends `s` and nothing else. -/
def Sends {α : Type} (action : StateM (List Statement) α) (log : List Statement) (s : Statement) :
    Prop :=
  (action.run log).2 = log ++ [s]

namespace Table

variable (t : Table) (respond : List Statement → Statement → Except StorageError Nat)

theorem run_write (w : Write) (log : List Statement) :
    (t.write (.recording respond) w).run log =
      match t.compile w with
      | .error cause => (.error (.compile cause), log)
      | .ok none => (.ok 0, log)
      | .ok (some s) => ((respond log s).mapError .storage, log ++ [s]) := by
  unfold write
  cases t.compile w with
  | error cause => rfl
  | ok statement =>
    cases statement with
    | none => rfl
    | some s => rfl

theorem write_congr {m : Type → Type} [Monad m] {t : Table} {w w' : Write}
    (h : t.compile w = t.compile w') (connection : Connection m) :
    t.write connection w = t.write connection w' := by
  unfold write
  rw [h]

theorem sends_write_iff (w : Write) (log : List Statement) (s : Statement) :
    Sends (t.write (.recording respond) w) log s ↔ t.compile w = .ok (some s) := by
  rw [Sends, run_write]
  cases t.compile w with
  | error cause => simp
  | ok statement =>
    cases statement with
    | none => simp
    | some s' => simp

theorem log_write_ne_iff (w : Write) (log : List Statement) :
    ((t.write (.recording respond) w).run log).2 ≠ log ↔ ∃ s, t.compile w = .ok (some s) := by
  rw [run_write]
  cases t.compile w with
  | error cause => simp
  | ok statement =>
    cases statement with
    | none => simp
    | some s => simp

end Table

namespace ModelTable

/-- A model's table over a connection that records, at the time `now`. -/
def recording (model : Model) (dialect : Dialect)
    (respond : List Statement → Statement → Except StorageError Nat) (now : String) :
    ModelTable (StateM (List Statement)) :=
  { model, dialect, connection := .recording respond, clock := pure now }

variable (model : Model) (dialect : Dialect)
  (respond : List Statement → Statement → Except StorageError Nat) (now : String)

/-- The time does not matter where the clock is not read. -/
theorem map_stamp_congr {model : Model} {rows : List Row}
    (hidle : ¬ (model.usesTimestamps && !rows.isEmpty) = true) (time time' : String) :
    rows.map (model.stamp time) = rows.map (model.stamp time') := by
  cases rows with
  | nil => rfl
  | cons row rows =>
    have huses : model.usesTimestamps = false := by simpa using hidle
    have hcolumns : model.stampColumns = [] := by simp [Model.stampColumns, huses]
    have hstamp : model.stamp time = model.stamp time' := by
      funext r
      rw [Model.stamp_eq_self (by simp [hcolumns]), Model.stamp_eq_self (by simp [hcolumns])]
    rw [hstamp]

theorem time_bind (rows : List Row) (request : List Row → Write) :
    ((recording model dialect respond now).time rows >>= fun time =>
        Table.write ⟨dialect, model.table⟩ (.recording respond)
          (request (rows.map (model.stamp time)))) =
      Table.write ⟨dialect, model.table⟩ (.recording respond)
        (request (rows.map (model.stamp now))) := by
  unfold time
  split
  · rfl
  · next hidle =>
    have hrows : rows.map (model.stamp "") = rows.map (model.stamp now) :=
      map_stamp_congr hidle "" now
    rw [pure_bind, hrows]

theorem upsert_recording (rows : List Row) (target : ConflictTarget) (update : Option UpdateSpec) :
    (recording model dialect respond now).upsert rows target update =
      Table.write ⟨dialect, model.table⟩ (.recording respond)
        (model.upsert now rows target update) :=
  time_bind model dialect respond now rows fun stamped => .upsert stamped target _

theorem insertIgnore_recording (rows : List Row) (target : Option ConflictTarget) :
    (recording model dialect respond now).insertIgnore rows target =
      Table.write ⟨dialect, model.table⟩ (.recording respond)
        (model.insertIgnore now rows target) :=
  time_bind model dialect respond now rows fun stamped => .insertIgnore stamped target

theorem sends_upsert_iff (rows : List Row) (target : ConflictTarget) (update : Option UpdateSpec)
    (log : List Statement) (s : Statement) :
    Sends ((recording model dialect respond now).upsert rows target update) log s ↔
      Table.compile ⟨dialect, model.table⟩ (model.upsert now rows target update) = .ok (some s) := by
  rw [upsert_recording]
  exact Table.sends_write_iff ⟨dialect, model.table⟩ respond _ log s

end ModelTable

end BulkWrite
