import Mathlib
import BulkWrite.Proofs.Layout
import BulkWrite.Proofs.Sending

/-!
Which requests are accepted. An upsert that may update needs a conflict target
(`upsert_without_target`); and the dialect does not matter, but for one request that a `MERGE` cannot
serve (`compile_dialect_independent`).
-/
namespace BulkWrite

namespace Table

theorem compile_upsert_empty_spec (t : Table) (rows : List Row) (target : ConflictTarget) :
    t.compile (.upsert rows target (some [])) = t.compile (.insert rows) := by
  rw [compile_eq, compile_eq]
  rfl

theorem upsert_refused_iff (t : Table) (rows : List Row) (target : ConflictTarget)
    (update : Option UpdateSpec) :
    t.compile (.upsert rows target update) = .error (.invalid .noConflictTarget) ↔
      rows ≠ [] ∧ target = [] ∧ update ≠ some [] := by
  by_cases hupdate : update = some []
  · rw [hupdate, compile_upsert_empty_spec, compile_eq_error_iff]
    simp [Write.handling, Handling.violation?, Row.normalize_ne_noConflictTarget]
  · rw [compile_eq_error_iff, Write.handling_upsert rows target hupdate]
    cases target with
    | nil => simp [Handling.violation?, Write.rows, hupdate]
    | cons column columns =>
      simp [Handling.violation?, Row.normalize_ne_noConflictTarget]

theorem exists_statement_insert_iff (t : Table) (rows : List Row) :
    (∃ s, t.compile (.insert rows) = .ok (some s)) ↔ Row.Compatible rows := by
  constructor
  · rintro ⟨s, h⟩
    obtain ⟨-, hrows, -⟩ := (t.compile_eq_statement_iff _ s).mp h
    exact hrows
  · intro hrows
    exact ⟨_, compile_of_compatible hrows rfl⟩

/-- An upsert is refused for want of a conflict target exactly if it has rows and its update spec is
not empty; without rows there is no statement. With an empty spec it is a plain insert whatever the
target is, and without a target this is the only way to send something. -/
theorem upsert_without_target (t : Table) (rows : List Row) (target : ConflictTarget)
    (update : Option UpdateSpec) :
    (t.compile (.upsert rows target update) = .error (.invalid .noConflictTarget) ↔
        rows ≠ [] ∧ target = [] ∧ update ≠ some []) ∧
      (t.compile (.upsert rows target update) = .ok none ↔ rows = []) ∧
      t.compile (.upsert rows target (some [])) = t.compile (.insert rows) ∧
      ∀ respond log,
        ((t.write (.recording respond) (.upsert rows [] update)).run log).2 ≠ log ↔
          update = some [] ∧ Row.Compatible rows := by
  refine ⟨t.upsert_refused_iff rows target update, t.compile_eq_none_iff _,
    t.compile_upsert_empty_spec rows target, fun respond log => ?_⟩
  rw [log_write_ne_iff]
  by_cases hupdate : update = some []
  · subst hupdate
    rw [compile_upsert_empty_spec, exists_statement_insert_iff]
    simp
  · by_cases hrows : rows = []
    · have hnone := (t.compile_eq_none_iff (.upsert rows [] update)).mpr hrows
      simp [hnone, hupdate]
    · have hrefused := (t.upsert_refused_iff rows [] update).mpr ⟨hrows, rfl, hupdate⟩
      simp [hrefused, hupdate]

/-- An upsert that only inserts is sent without a target. -/
theorem insert_only_upsert_without_target :
    let t : Table := ⟨.sqlite, "t"⟩
    let w := Write.upsert [.ofList [("a", .bound (.int 1))]] [] (some [])
    let s : Statement := { sql := "INSERT INTO \"t\" (\"a\") VALUES (?)", bindings := [.int 1] }
    t.compile w = .ok (some s) ∧ Sends (t.write (.recording fun _ _ => .ok 1) w) [] s := by
  intro t w s
  have h : t.compile w = .ok (some s) := by
    simp only [s]
    cbv
  exact ⟨h, (t.sends_write_iff _ w [] s).mpr h⟩

end Table

/-! Dialects differ in their quotes and in their conflict style. -/

namespace Dialect

variable {d d' : Dialect}

theorem quote_congr (hquotes : d.quotes = d'.quotes) : d.quote = d'.quote := by
  funext name
  rw [quote, quote, hquotes]

theorem columnList_congr (hquotes : d.quotes = d'.quotes) : d.columnList = d'.columnList := by
  funext columns
  rw [columnList, columnList, quote_congr hquotes]

theorem parameter_eq (d d' : Dialect) : d.parameter = d'.parameter := by
  funext v
  cases v <;> rfl

theorem valueGroups_eq (d d' : Dialect) : d.valueGroups = d'.valueGroups := by
  have hgroup : d.valueGroup = d'.valueGroup := by
    funext row
    rw [valueGroup, valueGroup, parameter_eq d d']
  funext rows
  rw [valueGroups, valueGroups, hgroup]

theorem insert_congr (hquotes : d.quotes = d'.quotes) : d.insert = d'.insert := by
  funext table rows
  rw [insert, insert, insertWith, insertWith, quote_congr hquotes, columnList_congr hquotes,
    valueGroups_eq d d']

theorem insertedValue_congr (hquotes : d.quotes = d'.quotes)
    (hstyle : d.conflictStyle = d'.conflictStyle) : d.insertedValue = d'.insertedValue := by
  funext column
  rw [insertedValue, insertedValue, hstyle, quote_congr hquotes]

theorem assignments_congr (hquotes : d.quotes = d'.quotes)
    (hstyle : d.conflictStyle = d'.conflictStyle) : d.assignments = d'.assignments := by
  have hentry : d.assignment = d'.assignment := by
    funext entry
    cases entry with
    | inserted column =>
      rw [assignment, assignment, quote_congr hquotes, insertedValue_congr hquotes hstyle]
    | assign column value => rw [assignment, assignment, quote_congr hquotes, parameter_eq d d']
  funext update
  rw [assignments, assignments, hentry]

end Dialect

theorem Handling.render_congr {d d' : Dialect} (hquotes : d.quotes = d'.quotes)
    (hstyle : d.conflictStyle = d'.conflictStyle) (name : String) (rows : List Row)
    (handling : Handling) : handling.render ⟨d, name⟩ rows = handling.render ⟨d', name⟩ rows := by
  cases handling with
  | fail => rw [render, render, Dialect.insert_congr hquotes]
  | update target spec =>
    simp only [render, Dialect.upsert, hstyle, Dialect.insert_congr hquotes,
      Dialect.columnList_congr hquotes, Dialect.assignments_congr hquotes hstyle]
  | skip target =>
    simp only [render, Dialect.insertIgnore, hstyle, Dialect.insert_congr hquotes]

/-- Rows are to be skipped, and no target says which of them exist already. -/
def Write.SkipsWithoutTarget : Write → Prop
  | .insertIgnore rows target => rows ≠ [] ∧ target.getD [] = []
  | .insert _ | .upsert _ _ _ => False

/-- The styles disagree about a missing target only if one of them has to match rows on it. -/
theorem Write.violation?_congr {w : Write} {style style' : ConflictStyle} (hrows : w.rows ≠ [])
    (h : w.SkipsWithoutTarget → style ≠ .merge ∧ style' ≠ .merge) :
    w.handling.violation? style = w.handling.violation? style' := by
  match w with
  | .insert _ => rfl
  | .upsert _ _ none => rfl
  | .upsert _ _ (some []) => rfl
  | .upsert _ _ (some (entry :: entries)) => rfl
  | .insertIgnore rows target =>
    by_cases htarget : target.getD [] = []
    · obtain ⟨hne, hne'⟩ := h ⟨hrows, htarget⟩
      simp [handling, Handling.violation?, hne, hne']
    · simp [handling, Handling.violation?, htarget]

namespace Table

/-- The values that a write binds, if it is accepted and has rows. -/
def parameters (t : Table) (w : Write) : Except CompileError (Option (List SqlValue)) :=
  (t.compile w).map (Option.map Statement.bindings)

/-- The dialect shows in nothing but the target that it may miss. -/
theorem parameters_eq (t : Table) (w : Write) :
    t.parameters w =
      if w.rows = [] then .ok none
      else match w.handling.violation? t.dialect.conflictStyle with
        | some v => .error (.invalid v)
        | none => (Row.normalize w.rows).map fun rows =>
          some (bindings rows w.handling.assignments) := by
  rw [parameters, compile_eq]
  by_cases hrows : w.rows = []
  · simp only [hrows, if_true]
    rfl
  · simp only [hrows, if_false]
    cases w.handling.violation? t.dialect.conflictStyle with
    | some v => rfl
    | none => cases Row.normalize w.rows <;> rfl

theorem compile_congr {d d' : Dialect} (hquotes : d.quotes = d'.quotes)
    (hstyle : d.conflictStyle = d'.conflictStyle) (name : String) (w : Write) :
    compile ⟨d, name⟩ w = compile ⟨d', name⟩ w := by
  have hassemble : assemble ⟨d, name⟩ w.handling = assemble ⟨d', name⟩ w.handling := by
    funext rows
    rw [assemble, assemble, Handling.render_congr hquotes hstyle]
  rw [compile_eq, compile_eq, hassemble]
  simp only [hstyle]

/-- Two dialects accept the same requests, give the same errors, and bind the same values in the same
order. The one exception is a request that skips rows without a target: SQL Server refuses it,
whatever its rows are. PostgreSQL and SQLite agree in everything. -/
theorem compile_dialect_independent (name : String) (w : Write) :
    (∀ d d' : Dialect, (w.SkipsWithoutTarget → d ≠ .sqlServer ∧ d' ≠ .sqlServer) →
        parameters ⟨d, name⟩ w = parameters ⟨d', name⟩ w) ∧
      (w.SkipsWithoutTarget →
        compile ⟨.sqlServer, name⟩ w = .error (.invalid .noMergeTarget)) ∧
      compile ⟨.postgres, name⟩ w = compile ⟨.sqlite, name⟩ w := by
  refine ⟨fun d d' h => ?_, fun h => ?_, compile_congr rfl rfl name w⟩
  · rw [parameters_eq, parameters_eq]
    by_cases hrows : w.rows = []
    · simp [hrows]
    · have hstyles : w.SkipsWithoutTarget →
          d.conflictStyle ≠ .merge ∧ d'.conflictStyle ≠ .merge := fun hskips =>
        (h hskips).imp (mt Dialect.eq_merge_dialect) (mt Dialect.eq_merge_dialect)
      simp only [Write.violation?_congr hrows hstyles]
  · match w with
    | .insert _ => exact h.elim
    | .upsert _ _ _ => exact h.elim
    | .insertIgnore rows target =>
      obtain ⟨hrows, htarget⟩ := h
      have hviolation : (Write.insertIgnore rows target).handling.violation? .merge =
          some .noMergeTarget := by
        simp [Write.handling, Handling.violation?, htarget]
      exact compile_of_violation hrows hviolation

/-- With a target the dialects accept a request alike. Without one SQL Server refuses it, and the
others report that the rows do not go together either. -/
theorem compile_dialect_independent_without_target :
    let row := Row.ofList [("a", .bound (.int 1)), ("b", .raw "now()")]
    let accepted := Write.insertIgnore [row, row] (some ["a"])
    let w := Write.insertIgnore [row, .ofList [("b", .bound .null)]] none
    ¬ accepted.SkipsWithoutTarget ∧
      parameters ⟨.sqlServer, "t"⟩ accepted = .ok (some [.int 1, .int 1]) ∧
      parameters ⟨.mySql, "t"⟩ accepted = .ok (some [.int 1, .int 1]) ∧
      w.SkipsWithoutTarget ∧
      parameters ⟨.mySql, "t"⟩ w = parameters ⟨.postgres, "t"⟩ w ∧
      parameters ⟨.mySql, "t"⟩ w = .error (.invalid (.columnMismatch 1 ["b"] ["a", "b"])) ∧
      compile ⟨.sqlServer, "t"⟩ w = .error (.invalid .noMergeTarget) := by
  intro row accepted w
  have htargeted : ¬ accepted.SkipsWithoutTarget := fun h => by simpa using h.2
  have hskips : w.SkipsWithoutTarget := ⟨by simp, rfl⟩
  have haccepted : parameters ⟨.mySql, "t"⟩ accepted = .ok (some [.int 1, .int 1]) := by cbv
  obtain ⟨hagree, -, -⟩ := compile_dialect_independent "t" accepted
  obtain ⟨hagree', hrefused, -⟩ := compile_dialect_independent "t" w
  refine ⟨htargeted, ?_, haccepted, hskips, ?_, by cbv, hrefused hskips⟩
  · rw [hagree .sqlServer .mySql fun h => absurd h htargeted, haccepted]
  · exact hagree' .mySql .postgres fun _ => ⟨by decide, by decide⟩

end Table

end BulkWrite
