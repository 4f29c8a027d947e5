import Mathlib
import BulkWrite.Proofs.Recovery
import BulkWrite.Proofs.Stamping

/-!
The update clause that a model gives to an upsert. An omitted update spec is resolved from the first
row before the times are filled in. So a first row without columns turns it into a plain insert
(`upsert_updates_iff`), and a creation time that is filled into a later row may overwrite that of an
existing one (`default_update_avoids_iff`).
-/
namespace BulkWrite

/-- The text of the statement that writes `rows` and does this with existing ones. -/
def Table.text (t : Table) (rows : List Row) (handling : Handling) : String :=
  handling.layout t.dialect t.name (t.dialect.columnList (Row.header (rows.map Row.sorted)))
    (t.dialect.valueGroups (rows.map Row.sorted)).text

theorem Table.text_update_ne_text_fail (t : Table) (rows : List Row) (target : ConflictTarget)
    (spec : UpdateSpec) : t.text rows (.update target spec) ≠ t.text rows .fail := by
  unfold text Handling.layout
  cases hstyle : t.dialect.conflictStyle with
  | onConflict =>
    intro heq
    have hlist := congrArg String.toList heq
    simp [Dialect.insertLayout] at hlist
  | onDuplicateKey =>
    intro heq
    have hlist := congrArg String.toList heq
    simp [Dialect.insertLayout, Handling.onDuplicateKeyVerb] at hlist
  | merge =>
    rw [Dialect.eq_merge_dialect hstyle]
    exact Dialect.mergeLayout_ne_insertLayout _

theorem Table.exists_text_update (t : Table) (rows : List Row) (target : ConflictTarget) :
    ∃ before after, ∀ spec,
      t.text rows (.update target spec) = before ++ (t.dialect.assignments spec).text ++ after := by
  unfold text Handling.layout
  generalize t.dialect.columnList (Row.header (rows.map Row.sorted)) = columns
  generalize (t.dialect.valueGroups (rows.map Row.sorted)).text = groups
  cases t.dialect.conflictStyle with
  | onConflict =>
    refine ⟨t.dialect.insertLayout "INSERT" t.name columns groups
      (" ON CONFLICT (" ++ t.dialect.columnList target ++ ") DO UPDATE SET "), "", fun spec => ?_⟩
    simp only [Dialect.insertLayout, Handling.onConflictClause_update, String.append_assoc,
      String.append_empty]
  | onDuplicateKey =>
    refine ⟨t.dialect.insertLayout "INSERT" t.name columns groups " ON DUPLICATE KEY UPDATE ", "",
      fun spec => ?_⟩
    simp only [Dialect.insertLayout, Handling.onDuplicateKeyVerb,
      Handling.onDuplicateKeyClause_update, String.append_assoc, String.append_empty]
  | merge =>
    obtain ⟨before, after, hlayout⟩ : ∃ before after, ∀ matched,
        t.dialect.mergeLayout t.name columns groups (Merge.condition t.name target) matched =
          before ++ matched ++ after := ⟨_, _, t.dialect.mergeLayout_eq _ _ _ _⟩
    refine ⟨before ++ "WHEN MATCHED THEN UPDATE SET ", " " ++ after, fun spec => ?_⟩
    simp only [hlayout, Handling.whenMatched_update, String.append_assoc]

theorem Table.text_update_inj {t : Table} {rows : List Row} {target : ConflictTarget}
    {spec spec' : UpdateSpec}
    (h : t.text rows (.update target spec) = t.text rows (.update target spec')) :
    (t.dialect.assignments spec).text = (t.dialect.assignments spec').text := by
  obtain ⟨before, after, htext⟩ := t.exists_text_update rows target
  have hlist := congrArg String.toList h
  simp only [htext, String.toList_append] at hlist
  exact String.toList_inj.mp (List.append_cancel_left (List.append_cancel_right hlist))

/-- The clause of the statement for existing rows gives their inserted values to `columns`, in this
order; without columns there is no clause. -/
def Table.Updates (t : Table) (rows : List Row) (target : ConflictTarget) (s : Statement)
    (columns : List String) : Prop :=
  s.sql = t.text rows (Write.upsert rows target (some (.ofColumns columns))).handling

theorem UpdateSpec.eq_ofColumns {spec : UpdateSpec} (h : spec.assignedValues = []) :
    spec = ofColumns spec.columns := by
  induction spec with
  | nil => rfl
  | cons entry spec ih =>
    cases entry with
    | inserted column => exact congrArg (UpdateEntry.inserted column :: ·) (ih h)
    | assign column value => cases h

theorem Table.Updates.unique {t : Table} {rows : List Row} {target : ConflictTarget} {s : Statement}
    {columns columns' : List String} (h : t.Updates rows target s columns)
    (h' : t.Updates rows target s columns') : columns = columns' := by
  have heq := h.symm.trans h'
  have hhandling : ∀ {cs : List String}, cs ≠ [] →
      (Write.upsert rows target (some (.ofColumns cs))).handling =
        .update target (.ofColumns cs) := fun hcs =>
    Write.handling_upsert rows target (by simpa [UpdateSpec.ofColumns] using hcs)
  by_cases hne : columns = []
  · by_cases hne' : columns' = []
    · rw [hne, hne']
    · rw [hne, hhandling hne'] at heq
      exact absurd heq.symm (t.text_update_ne_text_fail rows target _)
  · by_cases hne' : columns' = []
    · rw [hne', hhandling hne] at heq
      exact absurd heq (t.text_update_ne_text_fail rows target _)
    · rw [hhandling hne, hhandling hne'] at heq
      have houtlines := t.dialect.assignments_inj (by simpa [UpdateSpec.ofColumns] using hne)
        (by simpa [UpdateSpec.ofColumns] using hne') (by simp) (by simp) (text_update_inj heq)
      have hcolumns := congrArg (List.map Prod.fst) houtlines
      simpa [UpdateSpec.ofColumns, UpdateEntry.outline, Function.comp_def] using hcolumns

namespace Model

/-- Refreshing adds an entry for a column that no entry names, or it adds nothing. -/
theorem refresh_cases (model : Model) (spec : UpdateSpec) :
    (∃ column, model.refreshColumn? = some column ∧ column ∉ spec.columns ∧
        model.refresh spec = spec ++ [.inserted column] ∧ spec ≠ []) ∨
      (spec ≠ [] → ∀ column, model.refreshColumn? = some column → column ∈ spec.columns) ∧
        model.refresh spec = spec := by
  unfold refresh
  cases model.refreshColumn? with
  | none => exact .inr ⟨by simp, rfl⟩
  | some column =>
    by_cases hspec : spec = []
    · exact .inr ⟨fun hne => absurd hspec hne, by simp [hspec]⟩
    · by_cases hmentions : spec.mentions column = true
      · refine .inr ⟨fun _ other hother => ?_, by simp [hmentions]⟩
        obtain rfl := Option.some.inj hother
        exact (spec.mentions_iff column).mp hmentions
      · refine .inl ⟨column, rfl, mt (spec.mentions_iff column).mpr hmentions, ?_, hspec⟩
        simp [hmentions, hspec]

theorem refresh_eq_nil_iff (model : Model) (update : UpdateSpec) :
    model.refresh update = [] ↔ update = [] := by
  obtain ⟨column, -, -, heq, hne⟩ | ⟨-, heq⟩ := model.refresh_cases update
  · simp [heq, hne]
  · rw [heq]

theorem mem_columns_refresh_iff {model : Model} {column : String}
    (h : model.refreshColumn? ≠ some column) (update : UpdateSpec) :
    column ∈ (model.refresh update).columns ↔ column ∈ update.columns := by
  obtain ⟨added, hadded, -, heq, -⟩ | ⟨-, heq⟩ := model.refresh_cases update
  · have hne : column ≠ added := fun hcolumn => h (hcolumn ▸ hadded)
    simp [heq, hne]
  · rw [heq]

theorem assignedValues_refresh (model : Model) (update : UpdateSpec) :
    (model.refresh update).assignedValues = update.assignedValues := by
  obtain ⟨added, -, -, heq, -⟩ | ⟨-, heq⟩ := model.refresh_cases update
  · simp [heq, UpdateSpec.assignedValues, UpdateEntry.value?]
  · rw [heq]

end Model

namespace ModelTable

variable {model : Model} {dialect : Dialect}
  {respond : List Statement → Statement → Except StorageError Nat} {now : String}
  {rows : List Row} {target : ConflictTarget} {update : Option UpdateSpec}
  {log : List Statement} {s : Statement}

/-- The rows of a statement that an upsert sends are stamped, and existing rows are treated as the
refreshed update spec says. -/
theorem text_of_sends_upsert
    (h : Sends ((recording model dialect respond now).upsert rows target update) log s) :
    let spec := model.refresh (update.getD (.ofColumns (Row.header rows)))
    s.sql = Table.text ⟨dialect, model.table⟩ (rows.map (model.stamp now))
        (Write.upsert (rows.map (model.stamp now)) target (some spec)).handling ∧
      (spec ≠ [] → target ≠ []) := by
  intro spec
  rw [sends_upsert_iff, Table.compile_eq_statement_iff] at h
  obtain ⟨hviolation, hrows, rfl⟩ := h
  refine ⟨Table.sql_assemble ⟨dialect, model.table⟩ hrows, fun hspec htarget => ?_⟩
  have hhandling : (model.upsert now rows target update).handling = .update target spec :=
    Write.handling_upsert _ _ (by simpa using hspec)
  rw [hhandling, htarget] at hviolation
  cases hviolation

/-- A sent upsert has an update clause, with assignments and a conflict target, exactly if its update
spec is not empty or, where there is none, the first row has a column. Otherwise it is a plain
insert. -/
theorem upsert_updates_iff
    (h : Sends ((recording model dialect respond now).upsert rows target update) log s) :
    let text := Table.text ⟨dialect, model.table⟩ (rows.map (model.stamp now))
    ((target ≠ [] ∧ ∃ spec, spec ≠ [] ∧ s.sql = text (.update target spec)) ↔
        update ≠ some [] ∧ (update = none → Row.header rows ≠ [])) ∧
      (update = some [] ∨ update = none ∧ Row.header rows = [] → s.sql = text .fail) := by
  intro text
  obtain ⟨hsql, htarget⟩ := text_of_sends_upsert h
  have hempty : model.refresh (update.getD (.ofColumns (Row.header rows))) = [] ↔
      update = some [] ∨ update = none ∧ Row.header rows = [] := by
    rw [Model.refresh_eq_nil_iff]
    cases update <;> simp [UpdateSpec.ofColumns]
  have hasked : update ≠ some [] ∧ (update = none → Row.header rows ≠ []) ↔
      ¬ (update = some [] ∨ update = none ∧ Row.header rows = []) := by
    rw [not_or, not_and]
  rw [hasked, ← hempty]
  generalize model.refresh (update.getD (.ofColumns (Row.header rows))) = spec at hsql htarget
  have hinsert : spec = [] → s.sql = text .fail := by
    rintro rfl
    exact hsql
  refine ⟨⟨?_, fun hspec => ?_⟩, hinsert⟩
  · rintro ⟨-, spec', -, hupdate⟩ hspec
    rw [hinsert hspec] at hupdate
    exact Table.text_update_ne_text_fail _ _ target spec' hupdate.symm
  · rw [Write.handling_upsert _ _ (by simpa using hspec)] at hsql
    exact ⟨htarget hspec, spec, hspec, hsql⟩

/-- The first row is stamped with both times, and the second one names its creation time. -/
theorem upsert_updates_iff_omitted :
    let rows := [Row.ofList [("a", .bound (.int 1))],
      Row.ofList [("a", .bound (.int 2)), ("created_at", .raw "now()")]]
    let s : Statement := {
      sql := "INSERT INTO \x60users\x60 (\x60a\x60, \x60created_at\x60, \x60updated_at\x60) " ++
        "VALUES (?, ?, ?), (?, now(), ?) ON DUPLICATE KEY UPDATE " ++
        "\x60a\x60 = VALUES(\x60a\x60), \x60updated_at\x60 = VALUES(\x60updated_at\x60)"
      bindings := [.int 1, .text "noon", .text "noon", .int 2, .text "noon"] }
    Sends ((recording {table := "users"} .mySql (fun _ _ => .ok 2) "noon").upsert rows ["a"] none)
        [] s ∧
      Row.header rows ≠ [] ∧
      ∃ spec, spec ≠ [] ∧ s.sql = Table.text ⟨.mySql, "users"⟩
        (rows.map (Model.stamp {table := "users"} "noon")) (.update ["a"] spec) := by
  intro rows s
  have h : Sends ((recording {table := "users"} .mySql (fun _ _ => .ok 2) "noon").upsert rows
      ["a"] none) [] s := by
    rw [sends_upsert_iff]
    simp only [s, String.reduceAppend]
    cbv
  have hheader : Row.header rows ≠ [] := by decide
  obtain ⟨hupdates, -⟩ := upsert_updates_iff h
  obtain ⟨-, hspec⟩ := hupdates.mpr ⟨by decide, fun _ => hheader⟩
  exact ⟨h, hheader, hspec⟩

/-- A first row without columns: the omitted update spec is lost, and with it the need for a
target. -/
theorem omitted_update_lost_without_columns :
    let s : Statement := {
      sql := "INSERT INTO \"users\" (\"created_at\", \"updated_at\") VALUES (?, ?)"
      bindings := [.text "noon", .text "noon"] }
    Sends ((recording {table := "users"} .sqlite (fun _ _ => .ok 1) "noon").upsert [.empty] [] none)
        [] s ∧
      ∀ target spec, s.sql ≠ Table.text ⟨.sqlite, "users"⟩
        ([Row.empty].map (Model.stamp {table := "users"} "noon")) (.update target spec) := by
  intro s
  have h : Sends ((recording {table := "users"} .sqlite (fun _ _ => .ok 1) "noon").upsert [.empty] []
      none) [] s := by
    rw [sends_upsert_iff]
    simp only [s]
    cbv
  refine ⟨h, fun target spec heq => ?_⟩
  obtain ⟨hinsert, -⟩ := text_of_sends_upsert h
  exact Table.text_update_ne_text_fail _ _ target spec (heq.symm.trans hinsert)

/-- The columns that a default update assigns can be read off the statement. If the model has a
creation column other than its update column, each row that does not name it is written with the
time of the write, and existing rows keep theirs exactly if the first row does not name it. -/
theorem default_update_avoids_iff {column : String} (huses : model.usesTimestamps = true)
    (hcreated : model.createdAt? = some column) (hupdated : model.updatedAt? ≠ some column)
    (h : Sends ((recording model dialect respond now).upsert rows target none) log s) :
    let stamped := rows.map (model.stamp now)
    (∀ r ∈ rows, column ∉ r.columns →
        (model.stamp now r).get? column = some (.bound (.text now))) ∧
      (∃ updated, Table.Updates ⟨dialect, model.table⟩ stamped target s updated) ∧
      ∀ updated, Table.Updates ⟨dialect, model.table⟩ stamped target s updated →
        (column ∉ updated ↔ column ∉ Row.header rows) := by
  intro stamped
  have hstamp : column ∈ model.stampColumns := by simp [Model.stampColumns, huses, hcreated]
  have hrefresh : model.refreshColumn? ≠ some column := by
    simpa [Model.refreshColumn?, huses] using hupdated
  obtain ⟨hsql, -⟩ := text_of_sends_upsert h
  have hpositional := UpdateSpec.eq_ofColumns
    ((model.assignedValues_refresh _).trans (UpdateSpec.assignedValues_ofColumns (Row.header rows)))
  rw [Option.getD_none, hpositional] at hsql
  refine ⟨fun r _ hmissing => Model.get?_stamp_of_missing now hstamp hmissing, ⟨_, hsql⟩, ?_⟩
  intro updated hupdated
  rw [hupdated.unique hsql, Model.mem_columns_refresh_iff hrefresh, UpdateSpec.columns_ofColumns]

/-- The first row does not name its creation time, and the second one does. -/
theorem default_update_avoids_iff_later_row :
    let rows := [Row.ofList [("a", .bound (.int 1))],
      Row.ofList [("a", .bound (.int 2)), ("created_at", .bound (.text "dawn"))]]
    let s : Statement := {
      sql := "INSERT INTO \"users\" (\"a\", \"created_at\", \"updated_at\") " ++
        "VALUES (?, ?, ?), (?, ?, ?) ON CONFLICT (\"a\") DO UPDATE SET " ++
        "\"a\" = \"excluded\".\"a\", \"updated_at\" = \"excluded\".\"updated_at\""
      bindings := [.int 1, .text "noon", .text "noon", .int 2, .text "dawn", .text "noon"] }
    Sends ((recording {table := "users"} .sqlite (fun _ _ => .ok 2) "noon").upsert rows ["a"] none)
        [] s ∧
      "created_at" ∉ Row.header rows ∧
      ∃ updated, "created_at" ∉ updated ∧ Table.Updates ⟨.sqlite, "users"⟩
        (rows.map (Model.stamp {table := "users"} "noon")) ["a"] s updated := by
  intro rows s
  have h : Sends ((recording {table := "users"} .sqlite (fun _ _ => .ok 2) "noon").upsert rows ["a"]
      none) [] s := by
    rw [sends_upsert_iff]
    simp only [s, String.reduceAppend]
    cbv
  have hheader : "created_at" ∉ Row.header rows := by decide
  obtain ⟨-, ⟨updated, hupdates⟩, havoids⟩ := default_update_avoids_iff rfl rfl (by decide) h
  exact ⟨h, hheader, updated, (havoids updated hupdates).mpr hheader, hupdates⟩

/-- The creation time of the second row is filled in, and it replaces that of an existing row
because the first row names its own. -/
theorem filled_creation_time_overwrites :
    let rows := [Row.ofList [("a", .bound (.int 1)), ("created_at", .bound (.text "dawn"))],
      Row.ofList [("a", .bound (.int 2))]]
    let s : Statement := {
      sql := "INSERT INTO \"users\" (\"a\", \"created_at\", \"updated_at\") " ++
        "VALUES (?, ?, ?), (?, ?, ?) ON CONFLICT (\"a\") DO UPDATE SET " ++
        "\"a\" = \"excluded\".\"a\", \"created_at\" = \"excluded\".\"created_at\", " ++
        "\"updated_at\" = \"excluded\".\"updated_at\""
      bindings := [.int 1, .text "dawn", .text "noon", .int 2, .text "noon", .text "noon"] }
    Sends ((recording {table := "users"} .sqlite (fun _ _ => .ok 2) "noon").upsert rows ["a"] none)
        [] s ∧
      (∃ r ∈ rows, "created_at" ∉ r.columns) ∧
      Table.Updates ⟨.sqlite, "users"⟩ (rows.map (Model.stamp {table := "users"} "noon")) ["a"] s
        ["a", "created_at", "updated_at"] := by
  intro rows s
  have h : Sends ((recording {table := "users"} .sqlite (fun _ _ => .ok 2) "noon").upsert rows ["a"]
      none) [] s := by
    rw [sends_upsert_iff]
    simp only [s, String.reduceAppend]
    cbv
  obtain ⟨hsql, -⟩ := text_of_sends_upsert h
  exact ⟨h, by decide, hsql⟩

end ModelTable

end BulkWrite
