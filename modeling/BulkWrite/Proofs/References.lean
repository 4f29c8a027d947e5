import BulkWrite.Proofs.Cells

/-!
References to columns. A `MERGE` refers to a column of either table by quoting a qualified name, and
an upsert of PostgreSQL and SQLite qualifies a quoted one; both write the very texts by which the
table and the column are introduced. Main statement: `references_agree`.
-/
namespace BulkWrite

namespace Merge

/-- The texts that stand for the two tables of a `MERGE` and for their columns. -/
structure Spelling where
  target : String
  source : String
  column : String → String

/-- The target table is introduced after `MERGE`, and the source table after `USING`. -/
def spelling (table : String) : Spelling where
  target := dialect.quote table
  source := dialect.quote sourceAlias
  column := dialect.quote

namespace Spelling

variable (w : Spelling)

def equation (column : String) : String :=
  w.source ++ "." ++ w.column column ++ " = " ++ w.target ++ "." ++ w.column column

def assignment : UpdateEntry → String
  | .inserted column => w.column column ++ " = " ++ w.source ++ "." ++ w.column column
  | .assign column value => w.column column ++ " = " ++ value.shown

def whenMatched (update : UpdateSpec) : String :=
  if update = [] then ""
  else "WHEN MATCHED THEN UPDATE SET " ++ ", ".intercalate (update.map w.assignment) ++ " "

/-- A `MERGE` in which each table and each column is spelled in one way. -/
def statement (rows : List Row) (target : ConflictTarget) (update : UpdateSpec) : String :=
  let columns := ", ".intercalate ((Row.header rows).map w.column)
  "MERGE " ++ w.target ++ " USING (VALUES " ++ (dialect.valueGroups rows).text ++ ") " ++ w.source ++
    " (" ++ columns ++ ") ON " ++ " AND ".intercalate (target.map w.equation) ++ " " ++
    w.whenMatched update ++ "WHEN NOT MATCHED THEN INSERT (" ++ columns ++ ") VALUES (" ++ columns ++
    ");"

end Spelling

theorem equation_eq_spelling (table column : String) :
    equation table column = (spelling table).equation column := by
  rw [equation, Dialect.quote_qualified, Dialect.quote_qualified]
  simp only [Spelling.equation, spelling, String.append_assoc]

theorem condition_eq_spelling (table : String) (target : ConflictTarget) :
    condition table target = " AND ".intercalate (target.map (spelling table).equation) := by
  have hequation : equation table = (spelling table).equation := funext (equation_eq_spelling table)
  rw [condition, hequation]

theorem text_assignment_eq_spelling (table : String) (entry : UpdateEntry) :
    (dialect.assignment entry).text = (spelling table).assignment entry := by
  cases entry with
  | inserted column =>
    have hvalue : dialect.insertedValue column = dialect.quote (sourceAlias ++ "." ++ column) := rfl
    rw [Dialect.assignment, hvalue, Dialect.quote_qualified]
    simp only [Fragment.text_ofText, Spelling.assignment, spelling, String.append_assoc]
  | assign column value =>
    rw [Dialect.assignment, Fragment.text_append, Fragment.text_ofText, Dialect.text_parameter]
    rfl

theorem text_whenMatched_eq_spelling (table : String) (update : UpdateSpec) :
    (whenMatched update).text = (spelling table).whenMatched update := by
  by_cases hupdate : update = []
  · subst hupdate
    rfl
  · have hentries : update.map (Fragment.text ∘ dialect.assignment) =
        update.map (spelling table).assignment :=
      List.map_congr_left fun entry _ => text_assignment_eq_spelling table entry
    rw [text_whenMatched hupdate, Dialect.assignments, Fragment.text_join, List.map_map, hentries,
      Spelling.whenMatched, if_neg hupdate]

theorem text_statement_eq_spelling (table : String) (rows : List Row) (target : ConflictTarget)
    (update : UpdateSpec) :
    (statement table rows target update).text = (spelling table).statement rows target update := by
  rw [text_statement, condition_eq_spelling, text_whenMatched_eq_spelling]
  rfl

end Merge

namespace Dialect

variable {d : Dialect}

theorem quote_excluded (hstyle : d.conflictStyle = .onConflict) :
    d.quote "excluded" = "\"excluded\"" := by
  cases d <;> first | rfl | cases hstyle

/-- Quoting a qualified name qualifies the quoted names. So a `MERGE` refers to its tables and columns
by the texts that introduce them: in the equations of its condition, one for each column of the
target in order, and in its assignments. The prefix of PostgreSQL and SQLite could as well be quoted
with the column. -/
theorem references_agree (d : Dialect) :
    (∀ qualifier name, d.quote (qualifier ++ "." ++ name) = d.quote qualifier ++ "." ++ d.quote name) ∧
      (∀ table rows target update,
        (sqlServer.upsert table rows target update).text =
            (Merge.spelling table).statement rows target update ∧
          (sqlServer.insertIgnore table rows target).text =
            (Merge.spelling table).statement rows target []) ∧
      (d.conflictStyle = .onConflict → ∀ column,
        (d.assignment (.inserted column)).text =
            d.quote column ++ " = " ++ "\"excluded\"" ++ "." ++ d.quote column ∧
          (d.assignment (.inserted column)).text =
            d.quote column ++ " = " ++ d.quote ("excluded." ++ column)) := by
  refine ⟨d.quote_qualified, fun table rows target update => ⟨?_, ?_⟩, fun hstyle column => ?_⟩
  · exact Merge.text_statement_eq_spelling table rows target update
  · exact Merge.text_statement_eq_spelling table rows target []
  · have hvalue : d.insertedValue column = d.quote "excluded" ++ "." ++ d.quote column := by
      rw [insertedValue, hstyle]
    have hqualified : d.quote ("excluded." ++ column) = d.quote "excluded" ++ "." ++ d.quote column :=
      d.quote_qualified "excluded" column
    rw [assignment, Fragment.text_ofText, hqualified, hvalue, quote_excluded hstyle]
    simp only [String.append_assoc, and_self]

/-- The table has a schema, and the second column has a dot and a closing quote. -/
theorem references_agree_qualified_table :
    let rows := [Row.ofList [("id", .bound (.int 1)), ("a.]", .raw "now()")]]
    let merge := Merge.spelling "dbo.users"
    (sqlServer.upsert "dbo.users" rows ["id", "a.]"] [.inserted "a.]"]).text =
        merge.statement rows ["id", "a.]"] [.inserted "a.]"] ∧
      merge.equation "a.]" = "[upsert_source].[a].[]]] = [dbo].[users].[a].[]]]" ∧
      merge.assignment (.inserted "a.]") = "[a].[]]] = [upsert_source].[a].[]]]" ∧
      sqlite.conflictStyle = .onConflict ∧
      (sqlite.assignment (.inserted "a.]")).text = "\"a\".\"]\" = \"excluded\".\"a\".\"]\"" := by
  intro rows merge
  obtain ⟨-, hmerge, hexcluded⟩ := references_agree sqlite
  obtain ⟨hupsert, -⟩ := hmerge "dbo.users" rows ["id", "a.]"] [.inserted "a.]"]
  obtain ⟨hassignment, -⟩ := hexcluded rfl "a.]"
  exact ⟨hupsert, by cbv, by cbv, rfl, hassignment.trans (by cbv)⟩

end Dialect

end BulkWrite
