/-!
Lists of texts with a separator between neighbours.
-/
namespace BulkWrite.Text

theorem intercalate_append {α : Type} (separator : List α) {xs ys : List (List α)} (hx : xs ≠ [])
    (hy : ys ≠ []) :
    separator.intercalate (xs ++ ys) =
      separator.intercalate xs ++ separator ++ separator.intercalate ys := by
  induction xs with
  | nil => exact absurd rfl hx
  | cons x xs ih =>
    rw [List.cons_append, List.intercalate_cons_of_ne_nil (by simp [hy])]
    by_cases h : xs = []
    · simp [h]
    · simp [ih h, List.intercalate_cons_of_ne_nil h]

end BulkWrite.Text
