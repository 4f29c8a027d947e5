import Mathlib
import BulkWrite.Proofs.Acceptance
import BulkWrite.Proofs.DefaultUpdate
import BulkWrite.Proofs.Determination

/-!
The assignments of a model's upsert, entry by entry: those that the caller asks for, or those of the
first row's columns by default, and after them the refreshed column, unless an entry names it already
(`upsert_assigns`).
-/
namespace BulkWrite

/-- The statement writes `rows` and treats existing ones as `spec` says, entry after entry: its text
has the clause of `spec`, and its values end with those that `spec` assigns. -/
structure Table.Assigns (t : Table) (rows : List Row) (target : ConflictTarget) (s : Statement)
    (spec : UpdateSpec) : Prop where
  spec_ne_nil : spec ≠ []
  sql_eq : s.sql = t.text rows (.update target spec)
  values_eq : s.bindings = bindings (rows.map Row.sorted) spec

/-- Without expressions, the entries can be read off the statement. -/
theorem Table.Assigns.unique {t : Table} {rows : List Row} {target : ConflictTarget} {s : Statement}
    {spec spec' : UpdateSpec} (h : t.Assigns rows target s spec) (h' : t.Assigns rows target s spec')
    (hbound : ∀ v ∈ spec.assignedValues, v.isRaw = false)
    (hbound' : ∀ v ∈ spec'.assignedValues, v.isRaw = false) : spec = spec' := by
  have houtline := t.dialect.assignments_inj h.spec_ne_nil h'.spec_ne_nil hbound hbound'
    (text_update_inj (h.sql_eq.symm.trans h'.sql_eq))
  have hvalues := h.values_eq.symm.trans h'.values_eq
  rw [bindings_eq, bindings_eq _ spec'] at hvalues
  exact UpdateSpec.eq_of_outline houtline
    (boundValues_inj hbound hbound' (List.append_cancel_left hvalues))

namespace Model

variable {model : Model}

theorem refreshColumn?_eq_some_iff (column : String) :
    model.refreshColumn? = some column ↔
      model.usesTimestamps = true ∧ model.updatedAt? = some column := by
  cases h : model.usesTimestamps <;> simp [refreshColumn?, h]

theorem mem_stampColumns_of_refreshColumn? {column : String}
    (h : model.refreshColumn? = some column) : column ∈ model.stampColumns := by
  obtain ⟨huses, hupdated⟩ := (refreshColumn?_eq_some_iff column).mp h
  simp [stampColumns, huses, hupdated]

/-- `clause` is what is asked for, and after it the inserted value of the update column, exactly if
the model keeps one and nothing that is asked for names it. -/
structure Refreshes (model : Model) (asked clause : UpdateSpec) : Prop where
  eq_or_exists_eq_append : clause = asked ∨ ∃ column, clause = asked ++ [.inserted column]
  eq_append_iff : ∀ column, clause = asked ++ [.inserted column] ↔
    model.usesTimestamps = true ∧ model.updatedAt? = some column ∧ column ∉ asked.columns

section

variable {spec : UpdateSpec} (hspec : spec ≠ [])

include hspec

theorem refresh_eq_append_iff (column : String) :
    model.refresh spec = spec ++ [.inserted column] ↔
      model.refreshColumn? = some column ∧ column ∉ spec.columns := by
  obtain ⟨added, hadded, hnew, heq, -⟩ | ⟨hold, heq⟩ := model.refresh_cases spec
  · rw [heq, hadded]
    simp only [List.append_cancel_left_eq, List.cons.injEq, UpdateEntry.inserted.injEq, and_true,
      Option.some.injEq]
    constructor
    · rintro rfl
      exact ⟨rfl, hnew⟩
    · rintro ⟨rfl, -⟩
      rfl
  · rw [heq]
    constructor
    · intro h
      simp at h
    · rintro ⟨hcolumn, hnew⟩
      exact absurd (hold hspec column hcolumn) hnew

theorem refreshes_refresh : model.Refreshes spec (model.refresh spec) where
  eq_or_exists_eq_append := by
    obtain ⟨column, -, -, heq, -⟩ | ⟨-, heq⟩ := model.refresh_cases spec
    · exact .inr ⟨column, heq⟩
    · exact .inl heq
  eq_append_iff column := by
    rw [model.refresh_eq_append_iff hspec, refreshColumn?_eq_some_iff, and_assoc]

theorem mem_columns_refresh {column : String} (hcolumn : model.refreshColumn? = some column) :
    column ∈ (model.refresh spec).columns := by
  obtain ⟨added, hadded, -, heq, -⟩ | ⟨hold, heq⟩ := model.refresh_cases spec
  · obtain rfl : added = column := Option.some.inj (hadded.symm.trans hcolumn)
    simp [heq]
  · rw [heq]
    exact hold hspec column hcolumn

end

variable {spec : UpdateSpec}

theorem nodup_columns_refresh (hnodup : spec.columns.Nodup) :
    (model.refresh spec).columns.Nodup := by
  obtain ⟨added, -, hnew, heq, -⟩ | ⟨-, heq⟩ := model.refresh_cases spec
  · rw [heq, UpdateSpec.columns_append_inserted, List.nodup_append]
    refine ⟨hnodup, List.nodup_singleton added, ?_⟩
    rintro column hcolumn _ hadded rfl
    exact hnew (List.mem_singleton.mp hadded ▸ hcolumn)
  · rwa [heq]

/-- The entry that refreshing adds takes its value from a column that is filled. -/
theorem mem_or_mem_stampColumns_of_mem_refresh {column : String}
    (h : .inserted column ∈ model.refresh spec) :
    .inserted column ∈ spec ∨ column ∈ model.stampColumns := by
  obtain ⟨added, hadded, -, heq, -⟩ | ⟨-, heq⟩ := model.refresh_cases spec
  · rw [heq, List.mem_append, List.mem_singleton] at h
    refine h.imp_right fun hentry => ?_
    obtain rfl := UpdateEntry.inserted.inj hentry
    exact mem_stampColumns_of_refreshColumn? hadded
  · exact .inl (heq ▸ h)

theorem mem_header_stamped_iff (now : String) {rows : List Row} (hrows : rows ≠ [])
    (column : String) :
    column ∈ Row.header ((rows.map (model.stamp now)).map Row.sorted) ↔
      column ∈ Row.header rows ∨ column ∈ model.stampColumns := by
  obtain ⟨first, rest, rfl⟩ := List.exists_cons_of_ne_nil hrows
  exact ((Row.columns_sorted_perm _).mem_iff).trans (model.mem_columns_stamp_iff now first column)

end Model

theorem Row.nodup_header (rows : List Row) : (header rows).Nodup := by
  cases rows with
  | nil => exact List.nodup_nil
  | cons first rest => exact first.nodup_columns

namespace ModelTable

variable {model : Model} {dialect : Dialect}
  {respond : List Statement → Statement → Except StorageError Nat} {now : String}
  {rows : List Row} {target : ConflictTarget} {update : Option UpdateSpec} {log : List Statement}

theorem assigns_of_sends_upsert {s : Statement}
    (h : Sends ((recording model dialect respond now).upsert rows target update) log s)
    (hspec : update.getD (.ofColumns (Row.header rows)) ≠ []) :
    Table.Assigns ⟨dialect, model.table⟩ (rows.map (model.stamp now)) target s
      (model.refresh (update.getD (.ofColumns (Row.header rows)))) := by
  have hrefresh : model.refresh (update.getD (.ofColumns (Row.header rows))) ≠ [] :=
    mt (model.refresh_eq_nil_iff _).mp hspec
  have hhandling : (model.upsert now rows target update).handling =
      .update target (model.refresh (update.getD (.ofColumns (Row.header rows)))) :=
    Write.handling_upsert _ _ (by simpa using hrefresh)
  obtain ⟨hsql, -⟩ := text_of_sends_upsert h
  rw [sends_upsert_iff, Table.compile_eq_statement_iff, hhandling] at h
  obtain ⟨-, -, rfl⟩ := h
  refine ⟨hrefresh, ?_, rfl⟩
  rw [hsql, Write.handling_upsert _ _ (by simpa using hrefresh)]
  rfl

theorem rows_ne_nil_of_sends_upsert {s : Statement}
    (h : Sends ((recording model dialect respond now).upsert rows target update) log s) :
    rows ≠ [] := by
  rw [sends_upsert_iff, Table.compile_eq_statement_iff] at h
  obtain ⟨-, hcompatible, -⟩ := h
  exact mt List.map_eq_nil_iff.mpr hcompatible.1

/-- With an explicitly empty update spec, an upsert is the plain insert of the stamped rows.
Otherwise it assigns what is asked for, in order, and then the inserted value of the update column,
exactly if the model keeps one and no entry names it. Columns are assigned once if they are asked
for once. -/
theorem upsert_assigns (hasked : update = none → Row.header rows ≠ []) :
    let t : Table := ⟨dialect, model.table⟩
    let stamped := rows.map (model.stamp now)
    let action := (recording model dialect respond now).upsert rows target update
    let asked := update.getD (.ofColumns (Row.header rows))
    (update = some [] → action = t.write (.recording respond) (.insert stamped)) ∧
      (update = none → asked.columns.Nodup) ∧
      (update ≠ some [] → ∀ s, Sends action log s → ∃ clause : UpdateSpec,
        t.Assigns stamped target s clause ∧ model.Refreshes asked clause ∧
        (∀ column, model.usesTimestamps = true → model.updatedAt? = some column →
          column ∈ clause.columns) ∧
        (asked.columns.Nodup → clause.columns.Nodup) ∧
        ((∀ column, .inserted column ∈ asked →
            column ∈ Row.header rows ∨ column ∈ model.stampColumns) →
          ∀ column, .inserted column ∈ clause → column ∈ Row.header (stamped.map Row.sorted)) ∧
        ((∀ v ∈ asked.assignedValues, v.isRaw = false) →
          ∀ spec : UpdateSpec, (∀ v ∈ spec.assignedValues, v.isRaw = false) →
            t.Assigns stamped target s spec → spec = clause)) := by
  intro t stamped action asked
  refine ⟨?_, ?_, fun hupdate s hs => ?_⟩
  · rintro rfl
    have hinsert : action = t.write (.recording respond) (.upsert stamped target (some [])) := by
      refine (upsert_recording model dialect respond now rows target (some [])).trans ?_
      simp only [Model.upsert, Option.getD_some, (model.refresh_eq_nil_iff []).mpr rfl]
      rfl
    exact hinsert.trans (Table.write_congr (t.compile_upsert_empty_spec stamped target) _)
  · rintro rfl
    have hcolumns : asked.columns = Row.header rows := UpdateSpec.columns_ofColumns _
    rw [hcolumns]
    exact Row.nodup_header rows
  · have hne : asked ≠ [] := by
      cases update with
      | none => simpa [asked, UpdateSpec.ofColumns] using hasked rfl
      | some spec => simpa [asked] using hupdate
    have hassigns := assigns_of_sends_upsert hs hne
    refine ⟨model.refresh asked, hassigns, Model.refreshes_refresh hne, ?_, ?_, ?_, ?_⟩
    · intro column huses hcolumn
      exact model.mem_columns_refresh hne
        ((Model.refreshColumn?_eq_some_iff column).mpr ⟨huses, hcolumn⟩)
    · exact model.nodup_columns_refresh
    · intro hinserted column hcolumn
      rw [Model.mem_header_stamped_iff now (rows_ne_nil_of_sends_upsert hs)]
      exact (model.mem_or_mem_stampColumns_of_mem_refresh hcolumn).elim (hinserted column) .inr
    · intro hbound spec hspec h
      refine h.unique hassigns hspec ?_
      rwa [Model.assignedValues_refresh]

/-- By default the columns of the first row are updated, and then the time. -/
theorem upsert_assigns_default :
    let rows := [Row.ofList [("a", .bound (.int 1))]]
    let s : Statement := {
      sql := "INSERT INTO \"users\" (\"a\", \"created_at\", \"updated_at\") VALUES (?, ?, ?) " ++
        "ON CONFLICT (\"a\") DO UPDATE SET \"a\" = \"excluded\".\"a\", " ++
        "\"updated_at\" = \"excluded\".\"updated_at\""
      bindings := [.int 1, .text "noon", .text "noon"] }
    Row.header rows ≠ [] ∧
      Sends ((recording {table := "users"} .postgres (fun _ _ => .ok 1) "noon").upsert rows ["a"]
        none) [] s ∧
      Table.Assigns ⟨.postgres, "users"⟩ (rows.map (Model.stamp {table := "users"} "noon")) ["a"] s
        [.inserted "a", .inserted "updated_at"] := by
  intro rows s
  have hheader : Row.header rows ≠ [] := by decide
  have hsends : Sends ((recording {table := "users"} .postgres (fun _ _ => .ok 1) "noon").upsert rows
      ["a"] none) [] s := by
    rw [sends_upsert_iff]
    simp only [s, String.reduceAppend]
    cbv
  have hasked : (none : Option UpdateSpec) = none → Row.header rows ≠ [] := fun _ => hheader
  obtain ⟨-, -, hclause⟩ := upsert_assigns hasked
  obtain ⟨clause, hassigns, hrefreshes, -⟩ := hclause (by simp) s hsends
  obtain rfl := (hrefreshes.eq_append_iff "updated_at").mpr ⟨rfl, rfl, by decide⟩
  exact ⟨hheader, hsends, hassigns⟩

end ModelTable

end BulkWrite
