import Mathlib
import BulkWrite.Proofs.Acceptance
import BulkWrite.Proofs.Stamping

/-!
What a model adds to its table. Without columns to fill it adds nothing but an order: by default an
upsert assigns the columns as the caller lists them, where the table sorts them first. With every
column filled already, rows pass through unchanged (`refines_table`).
-/
namespace BulkWrite

theorem Row.header_sorted_perm (rows : List Row) :
    (header (rows.map sorted)).Perm (header rows) := by
  cases rows with
  | nil => exact List.Perm.refl []
  | cons first rest => exact first.columns_sorted_perm

namespace Table

variable {t : Table}

theorem parameters_upsert_ofColumns {columns : List String} (hcolumns : columns ≠ [])
    (rows : List Row) (target : ConflictTarget) :
    t.parameters (.upsert rows target (some (.ofColumns columns))) =
      t.parameters (.upsert rows target none) := by
  have hspec : (some (UpdateSpec.ofColumns columns)) ≠ some [] := by
    simpa [UpdateSpec.ofColumns] using hcolumns
  -- Inserted values are no parameters, so their columns show in the text only.
  have hbindings : ∀ (normal : List Row) (cs : List String),
      bindings normal (.ofColumns cs) = bindings normal [] := by
    intro normal cs
    rw [bindings_eq, UpdateSpec.assignedValues_ofColumns]
    exact List.append_nil _
  rw [parameters_eq, parameters_eq, Write.handling_upsert rows target hspec,
    Write.handling_upsert rows target (by simp)]
  simp only [Write.rows, Handling.violation?, Handling.assignments, Option.getD_some,
    Option.getD_none, hbindings]

theorem parameters_upsert_header {rows : List Row} (hheader : rows = [] ∨ Row.header rows ≠ [])
    (target : ConflictTarget) :
    t.parameters (.upsert rows target (some (.ofColumns (Row.header rows)))) =
      t.parameters (.upsert rows target none) := by
  rcases hheader with rfl | hheader
  · rw [parameters_eq, parameters_eq]
    rfl
  · exact parameters_upsert_ofColumns hheader rows target

/-- Writes with the same parameters either compile alike or differ in the text of their statements. -/
theorem compile_eq_or_of_parameters_eq {w w' : Write} (h : t.parameters w = t.parameters w') :
    t.compile w = t.compile w' ∨ ∃ s s', t.compile w = .ok (some s) ∧
      t.compile w' = .ok (some s') ∧ s.bindings = s'.bindings := by
  unfold parameters at h
  cases hw : t.compile w with
  | error e =>
    cases hw' : t.compile w' with
    | error e' => simp_all [Except.map]
    | ok statement' => simp_all [Except.map]
  | ok statement =>
    cases hw' : t.compile w' with
    | error e' => simp_all [Except.map]
    | ok statement' => cases statement <;> cases statement' <;> simp_all [Except.map]

theorem compile_upsert_none (t : Table) {rows : List Row} (hheader : rows = [] ∨ Row.header rows ≠ [])
    (target : ConflictTarget) :
    t.compile (.upsert rows target none) =
      t.compile (.upsert rows target (some (.ofColumns (Row.header (rows.map Row.sorted))))) := by
  rcases hheader with rfl | hheader
  · rw [(t.compile_eq_none_iff _).mpr rfl, (t.compile_eq_none_iff _).mpr rfl]
  · have hspec : some (UpdateSpec.ofColumns (Row.header (rows.map Row.sorted))) ≠ some [] := by
      have hsorted : Row.header (rows.map Row.sorted) ≠ [] := fun h =>
        hheader (List.nil_perm.mp (h ▸ Row.header_sorted_perm rows))
      simpa [UpdateSpec.ofColumns] using hsorted
    rw [compile_eq, compile_eq, Write.handling_upsert rows target hspec,
      Write.handling_upsert rows target (by simp)]
    rfl

end Table

namespace Model

variable {model : Model}

theorem stampColumns_eq_nil_iff :
    model.stampColumns = [] ↔
      model.usesTimestamps = false ∨ model.createdAt? = none ∧ model.updatedAt? = none := by
  cases h : model.usesTimestamps <;> simp [stampColumns, h]

theorem refresh_of_stampColumns_eq_nil (h : model.stampColumns = []) (spec : UpdateSpec) :
    model.refresh spec = spec := by
  have hcolumn : model.refreshColumn? = none := by
    rcases stampColumns_eq_nil_iff.mp h with huses | ⟨-, hupdated⟩
    · simp [refreshColumn?, huses]
    · simp [refreshColumn?, hupdated]
  rw [refresh, hcolumn]

theorem map_stamp_eq_self {rows : List Row}
    (h : ∀ r ∈ rows, ∀ column ∈ model.stampColumns, column ∈ r.columns) (now : String) :
    rows.map (model.stamp now) = rows := by
  have hrows : rows.map (model.stamp now) = rows.map id :=
    List.map_congr_left fun r hr => stamp_eq_self (h r hr) now
  rw [hrows, List.map_id]

end Model

namespace ModelTable

section

variable {model : Model} (dialect : Dialect)
  (respond : List Statement → Statement → Except StorageError Nat) (now : String)

theorem insertIgnore_eq_write {rows : List Row}
    (h : ∀ r ∈ rows, ∀ column ∈ model.stampColumns, column ∈ r.columns)
    (target : Option ConflictTarget) :
    (recording model dialect respond now).insertIgnore rows target =
      Table.write ⟨dialect, model.table⟩ (.recording respond) (.insertIgnore rows target) := by
  rw [insertIgnore_recording, Model.insertIgnore, Model.map_stamp_eq_self h]

theorem upsert_eq_write (h : model.stampColumns = []) (rows : List Row) (target : ConflictTarget)
    (update : Option UpdateSpec) :
    (recording model dialect respond now).upsert rows target update =
      Table.write ⟨dialect, model.table⟩ (.recording respond)
        (.upsert rows target (some (update.getD (.ofColumns (Row.header rows))))) := by
  rw [upsert_recording, Model.upsert, Model.refresh_of_stampColumns_eq_nil h,
    Model.map_stamp_eq_self (by simp [h])]

end

/-- A model that fills no columns does what its table does, but for the default update: this assigns
the columns in the order of the caller, and is sent and refused in the same cases, with the same
values. Any model skips existing rows as its table does, if every row has all columns that the model
fills. -/
theorem refines_table (model : Model) (dialect : Dialect)
    (respond : List Statement → Statement → Except StorageError Nat) (now : String)
    (rows : List Row) :
    let t : Table := ⟨dialect, model.table⟩
    let connection := Connection.recording respond
    let mt := recording model dialect respond now
    (model.usesTimestamps = false ∨ model.createdAt? = none ∧ model.updatedAt? = none →
      (∀ target, mt.insertIgnore rows target = t.write connection (.insertIgnore rows target)) ∧
      (∀ target update, mt.upsert rows target (some update) =
        t.write connection (.upsert rows target (some update))) ∧
      (rows = [] ∨ Row.header rows ≠ [] → ∀ target log,
        let byModel := mt.upsert rows target none
        let byTable := t.write connection (.upsert rows target none)
        ((∃ s, Sends byModel log s) ↔ ∃ s, Sends byTable log s) ∧
          (∀ s s', Sends byModel log s → Sends byTable log s' → s.bindings = s'.bindings) ∧
          ((¬ ∃ s, Sends byTable log s) → byModel.run log = byTable.run log) ∧
          ∃ columns columns', columns.Perm columns' ∧
            byModel = t.write connection (.upsert rows target (some (.ofColumns columns))) ∧
            byTable = t.write connection (.upsert rows target (some (.ofColumns columns'))))) ∧
      ((∀ r ∈ rows, ∀ column ∈ model.stampColumns, column ∈ r.columns) →
        ∀ target, mt.insertIgnore rows target = t.write connection (.insertIgnore rows target)) := by
  intro t connection mt
  refine ⟨fun hplain => ?_, fun hfilled target =>
    insertIgnore_eq_write dialect respond now hfilled target⟩
  have hcolumns := Model.stampColumns_eq_nil_iff.mpr hplain
  refine ⟨fun target => insertIgnore_eq_write dialect respond now (by simp [hcolumns]) target,
    fun target update => upsert_eq_write dialect respond now hcolumns rows target (some update),
    fun hheader target log => ?_⟩
  intro byModel byTable
  have hmodel : byModel =
      t.write connection (.upsert rows target (some (.ofColumns (Row.header rows)))) :=
    upsert_eq_write dialect respond now hcolumns rows target none
  have htable : byTable = t.write connection
      (.upsert rows target (some (.ofColumns (Row.header (rows.map Row.sorted))))) :=
    Table.write_congr (t.compile_upsert_none hheader target) connection
  -- The two writes compile alike, or to statements with the same values.
  have halike := Table.compile_eq_or_of_parameters_eq
    (Table.parameters_upsert_header (t := t) hheader target)
  refine ⟨?_, ?_, ?_, _, _, (Row.header_sorted_perm rows).symm, hmodel, htable⟩
  · rw [hmodel]
    simp only [byTable, connection, Table.sends_write_iff]
    rcases halike with heq | ⟨s, s', hs, hs', -⟩
    · rw [heq]
    · simp [hs, hs']
  · intro s s' hs hs'
    rw [hmodel, Table.sends_write_iff] at hs
    rw [Table.sends_write_iff] at hs'
    rcases halike with heq | ⟨r, r', hr, hr', hbindings⟩
    · rw [heq, hs'] at hs
      simp_all
    · simp_all
  · intro hnone
    rcases halike with heq | ⟨-, s', -, hs', -⟩
    · rw [hmodel, Table.write_congr heq]
    · exact absurd ⟨s', (t.sends_write_iff respond _ log s').mpr hs'⟩ hnone

/-- The columns stand against the order of the statement, and a row brings both of its times. -/
theorem refines_table_reordered :
    let tag : Model := {table := "tags", usesTimestamps := false}
    let rows := [Row.ofList [("b", .bound .null), ("a", .bound (.int 1))]]
    let byModel : Statement := {
      sql := "INSERT INTO \"tags\" (\"a\", \"b\") VALUES (?, ?) ON CONFLICT (\"a\") DO UPDATE SET " ++
        "\"b\" = \"excluded\".\"b\", \"a\" = \"excluded\".\"a\""
      bindings := [.int 1, .null] }
    let byTable : Statement := {
      sql := "INSERT INTO \"tags\" (\"a\", \"b\") VALUES (?, ?) ON CONFLICT (\"a\") DO UPDATE SET " ++
        "\"a\" = \"excluded\".\"a\", \"b\" = \"excluded\".\"b\""
      bindings := [.int 1, .null] }
    let user : Model := {table := "users"}
    let timed := [Row.ofList [("created_at", .raw "now()"), ("updated_at", .bound .null)]]
    tag.usesTimestamps = false ∧ Row.header rows ≠ [] ∧
      Sends ((recording tag .sqlite (fun _ _ => .ok 1) "noon").upsert rows ["a"] none) [] byModel ∧
      Sends (Table.write ⟨.sqlite, "tags"⟩ (.recording fun _ _ => .ok 1) (.upsert rows ["a"] none)) []
        byTable ∧
      byModel.bindings = byTable.bindings ∧
      (∀ r ∈ timed, ∀ column ∈ user.stampColumns, column ∈ r.columns) ∧
      (recording user .mySql (fun _ _ => .ok 1) "noon").insertIgnore timed none =
        Table.write ⟨.mySql, "users"⟩ (.recording fun _ _ => .ok 1) (.insertIgnore timed none) := by
  intro tag rows byModel byTable user timed
  have huses : tag.usesTimestamps = false := rfl
  have hheader : Row.header rows ≠ [] := by decide
  have hfilled : ∀ r ∈ timed, ∀ column ∈ user.stampColumns, column ∈ r.columns := by decide
  have hmodel : Sends ((recording tag .sqlite (fun _ _ => .ok 1) "noon").upsert rows ["a"] none) []
      byModel := by
    rw [sends_upsert_iff]
    simp only [byModel, String.reduceAppend]
    cbv
  have htable : Sends (Table.write ⟨.sqlite, "tags"⟩ (.recording fun _ _ => .ok 1)
      (.upsert rows ["a"] none)) [] byTable := by
    rw [Table.sends_write_iff]
    simp only [byTable, String.reduceAppend]
    cbv
  obtain ⟨hplain, -⟩ := refines_table tag .sqlite (fun _ _ => .ok 1) "noon" rows
  obtain ⟨-, -, homitted⟩ := hplain (.inl huses)
  obtain ⟨-, hbindings, -⟩ := homitted (.inr hheader) ["a"] []
  obtain ⟨-, htimed⟩ := refines_table user .mySql (fun _ _ => .ok 1) "noon" timed
  exact ⟨huses, hheader, hmodel, htable, hbindings _ _ hmodel htable, hfilled, htimed hfilled none⟩

end ModelTable

end BulkWrite
