import BulkWrite.Proofs.Compilation

/-!
The text of a statement, written out for each dialect. The columns and the value groups are holes, to
be filled from rows in normal form, from a caller's rows, or from what a reader of the text has found.
-/
namespace BulkWrite

namespace Dialect

def insertLayout (d : Dialect) (verb table columns groups clause : String) : String :=
  verb ++ " INTO " ++ d.quote table ++ " (" ++ columns ++ ") VALUES " ++ groups ++ clause

/-- The columns are those of the source table, those of the insert, and the values of the insert. -/
def mergeLayout (d : Dialect) (table columns groups condition matched : String) : String :=
  "MERGE " ++ d.quote table ++ " USING (VALUES " ++ groups ++ ") " ++ d.quote sourceAlias ++ " (" ++
    columns ++ ") ON " ++ condition ++ " " ++ matched ++ "WHEN NOT MATCHED THEN INSERT (" ++
    columns ++ ") VALUES (" ++ columns ++ ");"

/-- What happens to matched rows stands between two texts that do not depend on it. -/
theorem mergeLayout_eq (d : Dialect) (table columns groups condition matched : String) :
    d.mergeLayout table columns groups condition matched =
      "MERGE " ++ d.quote table ++ " USING (VALUES " ++ groups ++ ") " ++ d.quote sourceAlias ++
        " (" ++ columns ++ ") ON " ++ condition ++ " " ++ matched ++
        ("WHEN NOT MATCHED THEN INSERT (" ++ columns ++ ") VALUES (" ++ columns ++ ");") := by
  unfold mergeLayout
  -- Left as it is, the closed text is evaluated.
  generalize d.quote sourceAlias = quoted
  simp only [String.append_assoc]

end Dialect

namespace Handling

variable (d : Dialect)

def onConflictClause : Handling → String
  | fail => ""
  | update target spec =>
    " ON CONFLICT (" ++ d.columnList target ++ ") DO UPDATE SET " ++ (d.assignments spec).text
  | skip _ => " ON CONFLICT DO NOTHING"

def onDuplicateKeyVerb : Handling → String
  | fail => "INSERT"
  | update _ _ => "INSERT"
  | skip _ => "INSERT IGNORE"

def onDuplicateKeyClause : Handling → String
  | fail => ""
  | update _ spec => " ON DUPLICATE KEY UPDATE " ++ (d.assignments spec).text
  | skip _ => ""

def whenMatched : Handling → String
  | fail => ""
  | update _ spec => "WHEN MATCHED THEN UPDATE SET " ++ (d.assignments spec).text ++ " "
  | skip _ => ""

@[simp] theorem onConflictClause_fail : fail.onConflictClause d = "" := rfl

@[simp] theorem onConflictClause_update (target : ConflictTarget) (spec : UpdateSpec) :
    (update target spec).onConflictClause d =
      " ON CONFLICT (" ++ d.columnList target ++ ") DO UPDATE SET " ++ (d.assignments spec).text :=
  rfl

@[simp] theorem onConflictClause_skip (target : ConflictTarget) :
    (skip target).onConflictClause d = " ON CONFLICT DO NOTHING" := rfl

@[simp] theorem onDuplicateKeyClause_fail : fail.onDuplicateKeyClause d = "" := rfl

@[simp] theorem onDuplicateKeyClause_update (target : ConflictTarget) (spec : UpdateSpec) :
    (update target spec).onDuplicateKeyClause d =
      " ON DUPLICATE KEY UPDATE " ++ (d.assignments spec).text := rfl

@[simp] theorem onDuplicateKeyClause_skip (target : ConflictTarget) :
    (skip target).onDuplicateKeyClause d = "" := rfl

@[simp] theorem whenMatched_update (target : ConflictTarget) (spec : UpdateSpec) :
    (update target spec).whenMatched d =
      "WHEN MATCHED THEN UPDATE SET " ++ (d.assignments spec).text ++ " " := rfl

@[simp] theorem whenMatched_skip (target : ConflictTarget) : (skip target).whenMatched d = "" := rfl

/-- The statement of a dialect that handles existing rows in this way. -/
def layout (table columns groups : String) (handling : Handling) : String :=
  match d.conflictStyle with
  | .onConflict => d.insertLayout "INSERT" table columns groups (handling.onConflictClause d)
  | .onDuplicateKey =>
    d.insertLayout handling.onDuplicateKeyVerb table columns groups (handling.onDuplicateKeyClause d)
  | .merge =>
    match handling with
    | fail => d.insertLayout "INSERT" table columns groups ""
    | update target _ | skip target =>
      d.mergeLayout table columns groups (Merge.condition table target) (handling.whenMatched d)

theorem layout_fail (table columns groups : String) :
    fail.layout d table columns groups = d.insertLayout "INSERT" table columns groups "" := by
  unfold layout
  cases d.conflictStyle <;> rfl

end Handling

theorem Dialect.eq_merge_dialect {d : Dialect} (h : d.conflictStyle = .merge) : d = Merge.dialect := by
  cases d <;> simp_all [conflictStyle, Merge.dialect]

theorem Write.spec_ne_nil {w : Write} (hrows : Row.Compatible w.rows) {target : ConflictTarget}
    {spec : UpdateSpec} (h : w.handling = .update target spec) : spec ≠ [] := by
  match w with
  | .insert _ => cases h
  | .insertIgnore _ _ => cases h
  | .upsert _ _ (some []) => cases h
  | .upsert _ _ (some (entry :: entries)) =>
    cases h
    simp
  | .upsert rows _ none =>
    cases h
    have hheader : Row.header (rows.map Row.sorted) ≠ [] := hrows.header_ne_nil
    simpa [UpdateSpec.ofColumns] using hheader

theorem Dialect.text_insertWith (d : Dialect) (verb table : String) (rows : List Row) :
    (d.insertWith verb table rows).text =
      d.insertLayout verb table (d.columnList (Row.header rows)) (d.valueGroups rows).text "" := by
  simp only [insertWith, insertLayout, Fragment.text_append, Fragment.text_ofText,
    String.append_empty]

theorem Merge.text_whenMatched {spec : UpdateSpec} (hspec : spec ≠ []) :
    (whenMatched spec).text =
      "WHEN MATCHED THEN UPDATE SET " ++ (dialect.assignments spec).text ++ " " := by
  simp only [whenMatched, List.isEmpty_iff, hspec, if_false, Fragment.text_append,
    Fragment.text_ofText]

theorem Merge.text_source (table : String) (rows : List Row) (target : ConflictTarget) :
    (source table rows target).text =
      "MERGE " ++ dialect.quote table ++ " USING (VALUES " ++ (dialect.valueGroups rows).text ++
        (") " ++ dialect.quote sourceAlias ++ " (" ++ dialect.columnList (Row.header rows) ++
          ") ON " ++ condition table target ++ " ") := by
  unfold source
  rw [Fragment.text_append, Fragment.text_append, Fragment.text_ofText, Fragment.text_ofText]

theorem Merge.text_whenNotMatched (columns : List String) :
    (whenNotMatched columns).text =
      "WHEN NOT MATCHED THEN INSERT (" ++ dialect.columnList columns ++ ") VALUES (" ++
        dialect.columnList columns ++ ");" :=
  rfl

theorem Merge.text_statement (table : String) (rows : List Row) (target : ConflictTarget)
    (spec : UpdateSpec) :
    (statement table rows target spec).text =
      dialect.mergeLayout table (dialect.columnList (Row.header rows)) (dialect.valueGroups rows).text
        (condition table target) (whenMatched spec).text := by
  unfold statement
  rw [Fragment.text_append, Fragment.text_append, text_source, text_whenNotMatched]
  unfold Dialect.mergeLayout
  -- Left as it is, the closed text is evaluated.
  generalize dialect.quote sourceAlias = quoted
  simp only [String.append_assoc]

/-- A statement's text depends on its rows through the header and the value groups only. -/
theorem Handling.text_render (t : Table) (rows : List Row) {handling : Handling}
    (hspec : ∀ target spec, handling = .update target spec → spec ≠ []) :
    (handling.render t rows).text =
      handling.layout t.dialect t.name (t.dialect.columnList (Row.header rows))
        (t.dialect.valueGroups rows).text := by
  cases handling with
  | fail =>
    simp only [layout]
    cases t.dialect.conflictStyle <;> exact t.dialect.text_insertWith "INSERT" t.name rows
  | update target spec =>
    have hne : spec ≠ [] := hspec target spec rfl
    simp only [render, layout, Dialect.upsert]
    cases hstyle : t.dialect.conflictStyle with
    | onConflict =>
      simp only [onConflictClause_update, Dialect.insert, Fragment.text_append,
        Fragment.text_ofText, Dialect.text_insertWith, Dialect.insertLayout, String.append_empty,
        String.append_assoc]
    | onDuplicateKey =>
      simp only [onDuplicateKeyVerb, onDuplicateKeyClause_update, Dialect.insert,
        Fragment.text_append, Fragment.text_ofText, Dialect.text_insertWith, Dialect.insertLayout,
        String.append_empty, String.append_assoc]
    | merge =>
      rw [Dialect.eq_merge_dialect hstyle]
      simp only [Merge.text_statement, Merge.text_whenMatched hne, whenMatched_update]
  | skip target =>
    simp only [render, layout, Dialect.insertIgnore]
    cases hstyle : t.dialect.conflictStyle with
    | onConflict =>
      simp only [onConflictClause_skip, Dialect.insert, Fragment.text_append, Fragment.text_ofText,
        Dialect.text_insertWith, Dialect.insertLayout, String.append_empty]
    | onDuplicateKey =>
      simp only [onDuplicateKeyVerb, onDuplicateKeyClause_skip, Dialect.ignoring_insert,
        Dialect.text_insertWith]
    | merge =>
      rw [Dialect.eq_merge_dialect hstyle]
      exact Merge.text_statement t.name rows target []

theorem Table.sql_assemble (t : Table) {w : Write} (hrows : Row.Compatible w.rows) :
    (t.assemble w.handling (w.rows.map Row.sorted)).sql =
      w.handling.layout t.dialect t.name
        (t.dialect.columnList (Row.header (w.rows.map Row.sorted)))
        (t.dialect.valueGroups (w.rows.map Row.sorted)).text :=
  Handling.text_render t _ fun _ _ h => w.spec_ne_nil hrows h

end BulkWrite
