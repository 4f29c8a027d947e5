import Mathlib
import BulkWrite.Proofs.Layout

/-!
Every cell stands under its own column. Values are written by position in the order that sorting gave
them, yet a statement can be read off the caller's rows by look-ups (`cells_under_columns`).
-/
namespace BulkWrite

def Write.spec : Write → UpdateSpec
  | .upsert _ _ spec => spec.getD []
  | .insert _ | .insertIgnore _ _ => []

def Write.values (w : Write) : List Value := w.rows.flatMap Row.values ++ w.spec.assignedValues

/-- What a value shows in a value group: the mark of a bound one, or the text of a raw one. -/
def Value.shown : Value → String
  | bound _ => "?"
  | raw sql => sql

@[simp] theorem Dialect.text_parameter (d : Dialect) (v : Value) : (d.parameter v).text = v.shown := by
  cases v <;> rfl

namespace Row

def cellText (r : Row) (column : String) : String := ((r.get? column).map Value.shown).getD ""

def cellValue? (r : Row) (column : String) : Option SqlValue :=
  (r.get? column).bind Value.bound?

def groupText (columns : List String) (r : Row) : String :=
  "(" ++ ", ".intercalate (columns.map r.cellText) ++ ")"

/-- Sorting moves each value along with its column. -/
theorem map_get?_sortedColumns (r : Row) :
    r.sortedColumns.map r.get? = r.sorted.values.map some := by
  have hget : r.get? = r.sorted.get? := funext fun c => (r.get?_sorted c).symm
  rw [← columns_sorted, hget, values, List.map_map]
  exact Entries.map_lookup_names r.sorted.nodup

theorem text_valueGroup_sorted (d : Dialect) (r : Row) :
    (d.valueGroup r.sorted).text = r.groupText r.sortedColumns := by
  have hcells : r.sortedColumns.map r.cellText = r.sorted.values.map Value.shown := by
    have h := congrArg (List.map fun v : Option Value => (v.map Value.shown).getD "")
      r.map_get?_sortedColumns
    simp only [List.map_map] at h
    exact h
  simp [Dialect.valueGroup, groupText, hcells, Function.comp_def]

theorem boundValues_sorted (r : Row) :
    boundValues r.sorted.values = r.sortedColumns.filterMap r.cellValue? := by
  have hcell : r.cellValue? = (fun v : Option Value => v.bind Value.bound?) ∘ r.get? := rfl
  rw [hcell, ← List.filterMap_map, map_get?_sortedColumns, List.filterMap_map]
  rfl

end Row

theorem Write.assignedValues_handling (w : Write) :
    w.handling.assignments.assignedValues = w.spec.assignedValues := by
  match w with
  | .insert _ => rfl
  | .insertIgnore _ _ => rfl
  | .upsert _ _ none => exact UpdateSpec.assignedValues_ofColumns _
  | .upsert _ _ (some []) => rfl
  | .upsert _ _ (some (entry :: entries)) => rfl

theorem Row.values_sorted_perm (r : Row) : r.sorted.values.Perm r.values :=
  (entries_sorted_perm r).map Prod.snd

/-- Sorting the rows and resolving the update spec bring no other values into a write. -/
theorem Write.mem_values_of_mem_normal {w : Write} {v : Value}
    (hv : v ∈ (w.rows.map Row.sorted).flatMap Row.values ++ w.handling.assignments.assignedValues) :
    v ∈ w.values := by
  rw [w.assignedValues_handling, List.mem_append, List.flatMap_map, List.mem_flatMap] at hv
  rcases hv with ⟨r, hr, hrow⟩ | hassigned
  · have hmem : v ∈ r.values := r.values_sorted_perm.mem_iff.mp hrow
    exact List.mem_append_left _ (List.mem_flatMap.mpr ⟨r, hr, hmem⟩)
  · exact List.mem_append_right _ hassigned

theorem Write.mem_values_of_mem_sorted {w : Write} {r : Row} {v : Value}
    (hr : r ∈ w.rows.map Row.sorted) (hv : v ∈ r.values) : v ∈ w.values :=
  mem_values_of_mem_normal (List.mem_append_left _ (List.mem_flatMap.mpr ⟨r, hr, hv⟩))

theorem Write.mem_values_of_mem_assigned {w : Write} {v : Value}
    (hv : v ∈ w.handling.assignments.assignedValues) : v ∈ w.values :=
  mem_values_of_mem_normal (List.mem_append_right _ hv)

/-- The columns of a statement are those of any one of the rows, sorted. There is one value group
for each row, in which the cell under each column is what the caller's row holds there; the values
are those of the cells, row by row and column by column, and then those that the update spec
assigns. -/
theorem Table.cells_under_columns {t : Table} {w : Write} {s : Statement}
    (h : t.compile w = .ok (some s)) {r : Row} (hr : r ∈ w.rows) :
    (∀ row ∈ w.rows, row.columns.Perm r.sortedColumns) ∧
      s.sql = w.handling.layout t.dialect t.name (t.dialect.columnList r.sortedColumns)
        (", ".intercalate (w.rows.map (Row.groupText r.sortedColumns))) ∧
      s.bindings = (w.rows.flatMap fun row => r.sortedColumns.filterMap row.cellValue?) ++
        boundValues w.spec.assignedValues := by
  obtain ⟨-, hrows, rfl⟩ := (t.compile_eq_statement_iff w s).mp h
  have hsame : ∀ row ∈ w.rows, row.sortedColumns = r.sortedColumns := fun row hrow =>
    Row.sortedColumns_eq_of_perm (hrows.perm hrow hr)
  refine ⟨fun row hrow => ?_, ?_, ?_⟩
  · exact (hrows.perm hrow hr).trans r.sortedColumns_perm.symm
  · have hgroups : (t.dialect.valueGroups (w.rows.map Row.sorted)).text =
        ", ".intercalate (w.rows.map (Row.groupText r.sortedColumns)) := by
      simp only [Dialect.valueGroups, Fragment.text_join, List.map_map]
      refine congrArg _ (List.map_congr_left fun row hrow => ?_)
      exact (row.text_valueGroup_sorted t.dialect).trans (by rw [hsame row hrow])
    rw [t.sql_assemble hrows, hrows.header_eq hr, hgroups]
  · have hcells : boundValues ((w.rows.map Row.sorted).flatMap Row.values) =
        w.rows.flatMap fun row => r.sortedColumns.filterMap row.cellValue? := by
      rw [boundValues_flatMap, List.flatMap_map]
      refine List.flatMap_congr fun row hrow => ?_
      rw [row.boundValues_sorted, hsame row hrow]
    simp only [assemble, bindings, boundValues_append, hcells, w.assignedValues_handling]

/-- The first row lists its columns against the order of the statement. -/
theorem Table.cells_under_columns_reordered :
    let first := Row.ofList [("b", .raw "now()"), ("a", .bound (.text "x"))]
    let second := Row.ofList [("a", .bound .null), ("b", .bound (.bool true))]
    let w := Write.upsert [first, second] ["a"] (some [.assign "b" (.bound (.int 1)), .inserted "a"])
    let s : Statement := {
      sql := "MERGE [t] USING (VALUES (?, now()), (?, ?)) [upsert_source] ([a], [b]) ON " ++
        "[upsert_source].[a] = [t].[a] WHEN MATCHED THEN UPDATE SET [b] = ?, " ++
        "[a] = [upsert_source].[a] WHEN NOT MATCHED THEN INSERT ([a], [b]) VALUES ([a], [b]);"
      bindings := [.text "x", .null, .bool true, .int 1] }
    Table.compile ⟨.sqlServer, "t"⟩ w = .ok (some s) ∧ first ∈ w.rows ∧
      (∀ row ∈ w.rows, row.columns.Perm first.sortedColumns) ∧
      s.sql = w.handling.layout .sqlServer "t" (Dialect.sqlServer.columnList first.sortedColumns)
        (", ".intercalate (w.rows.map (Row.groupText first.sortedColumns))) ∧
      s.bindings = (w.rows.flatMap fun row => first.sortedColumns.filterMap row.cellValue?) ++
        boundValues w.spec.assignedValues := by
  intro first second w s
  have h : Table.compile ⟨.sqlServer, "t"⟩ w = .ok (some s) := by
    simp only [s, String.reduceAppend]
    cbv
  have hr : first ∈ w.rows := List.mem_cons_self
  exact ⟨h, hr, cells_under_columns h hr⟩

end BulkWrite
