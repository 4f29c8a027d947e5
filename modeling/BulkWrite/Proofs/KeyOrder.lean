import Mathlib
import BulkWrite.Proofs.Compilation

/-!
The order in which a caller sets the columns of a row is no part of a write
(`compile_withRows_of_sameCells`): rows are sorted before anything else looks at them.
-/
namespace BulkWrite

/-- The rows hold the same values under the same columns, in whatever orders. -/
def Row.SameCells (r s : Row) : Prop := ∀ column, r.get? column = s.get? column

def Write.withRows (rows : List Row) : Write → Write
  | .insert _ => .insert rows
  | .upsert _ target update => .upsert rows target update
  | .insertIgnore _ target => .insertIgnore rows target

@[simp] theorem Write.rows_withRows (rows : List Row) (w : Write) : (w.withRows rows).rows = rows := by
  cases w <;> rfl

namespace Row

variable {rows rows' : List Row}

theorem map_sorted_eq_of_sameCells (h : List.Forall₂ SameCells rows rows') :
    rows.map sorted = rows'.map sorted :=
  map_eq_of_forall₂ (fun r s hrow => (sorted_eq_sorted_iff r s).mpr hrow) h

theorem normalize_congr (h : rows.map sorted = rows'.map sorted) : normalize rows = normalize rows' := by
  unfold normalize
  rw [h]

end Row

theorem Write.handling_withRows {w : Write} {rows : List Row}
    (h : w.rows.map Row.sorted = rows.map Row.sorted) : (w.withRows rows).handling = w.handling := by
  match w with
  | .insert _ => rfl
  | .insertIgnore _ _ => rfl
  | .upsert _ _ (some []) => rfl
  | .upsert _ _ (some (entry :: entries)) => rfl
  | .upsert rows' target none =>
    have hrows : rows'.map Row.sorted = rows.map Row.sorted := h
    simp only [withRows, handling, Option.getD_none, hrows]

/-- With the columns of each row in another order, a write still has no statement, the same
statement, or the same error about the same row and the same columns. -/
theorem Table.compile_withRows_of_sameCells (t : Table) {w : Write} {rows : List Row}
    (h : List.Forall₂ Row.SameCells w.rows rows) : t.compile (w.withRows rows) = t.compile w := by
  have hsorted : w.rows.map Row.sorted = rows.map Row.sorted := Row.map_sorted_eq_of_sameCells h
  have hempty : rows = [] ↔ w.rows = [] := by
    rw [← List.map_eq_nil_iff (f := Row.sorted), ← hsorted, List.map_eq_nil_iff]
  rw [compile_eq, compile_eq, Write.handling_withRows hsorted, Write.rows_withRows,
    Row.normalize_congr hsorted]
  simp only [hempty]

/-- Rows in other orders give the same statement. Where the second row differs, the error names the
columns of both in sorted order. -/
theorem Table.compile_withRows_of_sameCells_mismatch :
    let first := Row.ofList [("b", .raw "now()"), ("a", .bound (.int 1))]
    let first' := Row.ofList [("a", .bound (.int 1)), ("b", .raw "now()")]
    let w := Write.upsert [first] ["a"] none
    let s : Statement := {
      sql := "INSERT INTO \"t\" (\"a\", \"b\") VALUES (?, now()) ON CONFLICT (\"a\") DO UPDATE SET " ++
        "\"a\" = \"excluded\".\"a\", \"b\" = \"excluded\".\"b\""
      bindings := [.int 1] }
    let uneven := Write.upsert [first, .ofList [("c", .bound .null), ("a", .bound (.int 2))]] ["a"] none
    let rows := [first', .ofList [("a", .bound (.int 2)), ("c", .bound .null)]]
    List.Forall₂ Row.SameCells w.rows [first'] ∧
      Table.compile ⟨.sqlite, "t"⟩ w = .ok (some s) ∧
      Table.compile ⟨.sqlite, "t"⟩ (w.withRows [first']) = .ok (some s) ∧
      List.Forall₂ Row.SameCells uneven.rows rows ∧
      Table.compile ⟨.sqlServer, "t"⟩ (uneven.withRows rows) =
        .error (.invalid (.columnMismatch 1 ["a", "c"] ["a", "b"])) := by
  intro first first' w s uneven rows
  have hfirst : Row.SameCells first first' := fun column =>
    Entries.lookup_eq_of_perm (List.Perm.swap _ _ _) (by decide) column
  have hsecond : Row.SameCells (.ofList [("c", .bound .null), ("a", .bound (.int 2))])
      (.ofList [("a", .bound (.int 2)), ("c", .bound .null)]) := fun column =>
    Entries.lookup_eq_of_perm (List.Perm.swap _ _ _) (by decide) column
  have hw : List.Forall₂ Row.SameCells w.rows [first'] := .cons hfirst .nil
  have huneven : List.Forall₂ Row.SameCells uneven.rows rows := .cons hfirst (.cons hsecond .nil)
  have hcompile : Table.compile ⟨.sqlite, "t"⟩ w = .ok (some s) := by
    simp only [s, String.reduceAppend]
    cbv
  refine ⟨hw, hcompile, ?_, huneven, ?_⟩
  · rw [Table.compile_withRows_of_sameCells _ hw, hcompile]
  · rw [Table.compile_withRows_of_sameCells _ huneven]
    cbv

end BulkWrite
