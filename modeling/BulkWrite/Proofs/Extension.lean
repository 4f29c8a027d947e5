import Mathlib
import BulkWrite.Proofs.Layout

/-!
Statements that skip or update existing rows, beside the plain insert of the same rows. MySQL replaces
the verb or puts a clause behind it, PostgreSQL and SQLite put a clause behind it, and the `MERGE` of
SQL Server has the same columns and value groups (`writes_extend_insert`).
-/
namespace BulkWrite

/-- How the texts that skip or update existing rows are made from that of a plain insert. In a
`MERGE`, an update is one more branch before the last one. -/
def Dialect.Extends (d : Dialect) (table columns groups : String) (target : ConflictTarget)
    (spec : UpdateSpec) (plain skipping updating : String) : Prop :=
  plain = "INSERT INTO " ++ d.quote table ++ " (" ++ columns ++ ") VALUES " ++ groups ∧
  match d.conflictStyle with
  | .onDuplicateKey =>
    skipping = "INSERT IGNORE" ++ .ofList (plain.toList.drop 6) ∧
      updating = plain ++ (" ON DUPLICATE KEY UPDATE " ++ (d.assignments spec).text)
  | .onConflict =>
    skipping = plain ++ " ON CONFLICT DO NOTHING" ∧
      updating = plain ++ (" ON CONFLICT (" ++ d.columnList target ++ ") DO UPDATE SET " ++
        (d.assignments spec).text)
  | .merge =>
    let source := "MERGE " ++ d.quote table ++ " USING (VALUES " ++ groups ++ ") " ++
      d.quote sourceAlias ++ " (" ++ columns ++ ") ON " ++ Merge.condition table target ++ " "
    let whenNotMatched :=
      "WHEN NOT MATCHED THEN INSERT (" ++ columns ++ ") VALUES (" ++ columns ++ ");"
    skipping = source ++ whenNotMatched ∧
      updating = source ++ ("WHEN MATCHED THEN UPDATE SET " ++ (d.assignments spec).text ++ " ") ++
        whenNotMatched

namespace Dialect

variable (d : Dialect) (table columns groups : String)

theorem insertLayout_insert :
    d.insertLayout "INSERT" table columns groups "" =
      "INSERT INTO " ++ d.quote table ++ " (" ++ columns ++ ") VALUES " ++ groups := by
  simp only [insertLayout, String.append_empty, String.reduceAppend]

theorem insertLayout_append (verb clause : String) :
    d.insertLayout verb table columns groups clause =
      d.insertLayout verb table columns groups "" ++ clause := by
  simp only [insertLayout, String.append_empty]

/-- Whatever the names contain, the verb is the first six characters. -/
theorem insertLayout_verb (verb clause : String) :
    d.insertLayout verb table columns groups clause =
      verb ++ .ofList ((d.insertLayout "INSERT" table columns groups clause).toList.drop 6) := by
  apply String.toList_inj.mp
  simp [insertLayout]

end Dialect

namespace Handling

variable (d : Dialect) (table columns groups : String)

theorem extends_layout (target : ConflictTarget) (spec : UpdateSpec) :
    d.Extends table columns groups target spec (fail.layout d table columns groups)
      ((skip target).layout d table columns groups)
      ((update target spec).layout d table columns groups) := by
  rw [layout_fail]
  refine ⟨d.insertLayout_insert table columns groups, ?_⟩
  unfold layout
  cases d.conflictStyle with
  | onConflict => exact ⟨d.insertLayout_append .., d.insertLayout_append ..⟩
  | onDuplicateKey => exact ⟨d.insertLayout_verb .., d.insertLayout_append ..⟩
  | merge =>
    have hskip := d.mergeLayout_eq table columns groups (Merge.condition table target) ""
    rw [String.append_empty] at hskip
    exact ⟨hskip, d.mergeLayout_eq ..⟩

end Handling

theorem Dialect.insertIgnore_congr {d : Dialect} (hstyle : d.conflictStyle ≠ .merge) (table : String)
    (rows : List Row) (target target' : ConflictTarget) :
    d.insertIgnore table rows target = d.insertIgnore table rows target' := by
  unfold insertIgnore
  cases h : d.conflictStyle with
  | onConflict => rfl
  | onDuplicateKey => rfl
  | merge => exact absurd h hstyle

namespace Table

theorem compile_insertIgnore_congr {t : Table} (hstyle : t.dialect.conflictStyle ≠ .merge)
    (rows : List Row) (target target' : Option ConflictTarget) :
    t.compile (.insertIgnore rows target) = t.compile (.insertIgnore rows target') := by
  have hassemble : t.assemble (.skip (target.getD [])) = t.assemble (.skip (target'.getD [])) := by
    funext normal
    simp only [assemble, Handling.render, Handling.assignments,
      Dialect.insertIgnore_congr hstyle t.name normal (target.getD []) (target'.getD [])]
  rw [compile_eq, compile_eq]
  simp only [Write.handling, Write.rows, hassemble]
  simp [Handling.violation?, hstyle]

/-- The statement that skips existing rows binds the values of the plain insert, and an upsert binds
those of its assignments after them. -/
theorem writes_extend_insert {t : Table} {rows normal : List Row}
    (hrows : Row.normalize rows = .ok normal) {target : ConflictTarget} (htarget : target ≠ [])
    {spec : UpdateSpec} (hspec : spec ≠ []) :
    ∃ plain skipping updating : Statement,
      t.compile (.insert rows) = .ok (some plain) ∧
      t.compile (.insertIgnore rows (some target)) = .ok (some skipping) ∧
      t.compile (.upsert rows target (some spec)) = .ok (some updating) ∧
      skipping.bindings = plain.bindings ∧
      updating.bindings = plain.bindings ++ boundValues spec.assignedValues ∧
      t.dialect.Extends t.name (t.dialect.columnList (Row.header normal))
        (t.dialect.valueGroups normal).text target spec plain.sql skipping.sql updating.sql ∧
      (t.dialect ≠ .sqlServer →
        ∀ target', t.compile (.insertIgnore rows target') = .ok (some skipping)) := by
  obtain ⟨hcompatible, rfl⟩ := (Row.normalize_eq_ok_iff rows normal).mp hrows
  have hupdate : (Write.upsert rows target (some spec)).handling = .update target spec :=
    Write.handling_upsert rows target (by simpa using hspec)
  have hplain := compile_of_compatible (t := t) (w := .insert rows) hcompatible rfl
  have hskipping := compile_of_compatible (t := t) (w := .insertIgnore rows (some target))
    hcompatible (by simp [Write.handling, Handling.violation?, htarget])
  have hupdating := compile_of_compatible (t := t) (w := .upsert rows target (some spec))
    hcompatible (by simp [hupdate, Handling.violation?, htarget])
  refine ⟨_, _, _, hplain, hskipping, hupdating, rfl, ?_, ?_, fun hdialect target' => ?_⟩
  · rw [hupdate]
    exact bindings_eq _ spec
  · rw [t.sql_assemble (w := .insert rows) hcompatible,
      t.sql_assemble (w := .insertIgnore rows (some target)) hcompatible,
      t.sql_assemble (w := .upsert rows target (some spec)) hcompatible, hupdate]
    exact Handling.extends_layout ..
  · have hstyle : t.dialect.conflictStyle ≠ .merge := mt Dialect.eq_merge_dialect hdialect
    rw [← hskipping]
    exact compile_insertIgnore_congr hstyle rows target' (some target)

/-- The names and the expression are full of keywords. -/
theorem writes_extend_insert_keywords :
    let t : Table := ⟨.mySql, "INSERT VALUES"⟩
    let rows := [Row.ofList [("INSERT", .raw "INSERT(1)"), ("A", .bound (.text "x"))]]
    let normal := [Row.ofList [("A", .bound (.text "x")), ("INSERT", .raw "INSERT(1)")]]
    let spec : UpdateSpec := [.assign "A" (.bound (.int 1)), .inserted "INSERT"]
    Row.normalize rows = .ok normal ∧ ["A"] ≠ [] ∧ spec ≠ [] ∧
      ∃ plain skipping updating : Statement,
        t.compile (.insert rows) = .ok (some plain) ∧
        t.compile (.insertIgnore rows (some ["A"])) = .ok (some skipping) ∧
        t.compile (.upsert rows ["A"] (some spec)) = .ok (some updating) ∧
        skipping.bindings = plain.bindings ∧
        updating.bindings = plain.bindings ++ boundValues spec.assignedValues ∧
        t.dialect.Extends t.name (t.dialect.columnList (Row.header normal))
          (t.dialect.valueGroups normal).text ["A"] spec plain.sql skipping.sql updating.sql ∧
        (t.dialect ≠ .sqlServer →
          ∀ target', t.compile (.insertIgnore rows target') = .ok (some skipping)) := by
  intro t rows normal spec
  have hrows : Row.normalize rows = .ok normal := by
    cbv
  have hspec : spec ≠ [] := by simp [spec]
  exact ⟨hrows, by simp, hspec, writes_extend_insert hrows (by simp) hspec⟩

end Table

end BulkWrite
