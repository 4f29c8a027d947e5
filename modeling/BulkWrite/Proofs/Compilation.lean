import BulkWrite.Proofs.Alignment
import BulkWrite.Proofs.NormalForm
import BulkWrite.Table

/-!
What `Table.compile` does, said once (`compile_eq`). Without rows there is no statement; a missing
conflict target is reported before any fault of the rows; otherwise the rows decide, and the statement
is the rendering of their normal form with its values.
-/
namespace BulkWrite

/-- What a write does about rows that exist already. An omitted update spec is resolved. -/
inductive Handling where
  /-- The write fails. -/
  | fail
  | update (target : ConflictTarget) (spec : UpdateSpec)
  | skip (target : ConflictTarget)
  deriving DecidableEq

namespace Handling

def assignments : Handling → UpdateSpec
  | update _ spec => spec
  | fail | skip _ => []

def render (t : Table) (rows : List Row) : Handling → Fragment
  | fail => t.dialect.insert t.name rows
  | update target spec => t.dialect.upsert t.name rows target spec
  | skip target => t.dialect.insertIgnore t.name rows target

theorem placeholders_render (t : Table) (rows : List Row) (handling : Handling) :
    (handling.render t rows).placeholders = (bindings rows handling.assignments).length := by
  cases handling with
  | fail => exact (t.dialect.aligned_insert t.name rows).placeholders_eq
  | update target spec => exact (t.dialect.aligned_upsert t.name rows target spec).placeholders_eq
  | skip target => exact (t.dialect.aligned_insertIgnore t.name rows target).placeholders_eq

end Handling

/-- An empty update spec is a plain insert, and an omitted one updates all columns of the rows. -/
def Write.handling : Write → Handling
  | .insert _ => .fail
  | .upsert _ _ (some []) => .fail
  | .upsert rows target update =>
    .update target (update.getD (.ofColumns (Row.header (rows.map Row.sorted))))
  | .insertIgnore _ target => .skip (target.getD [])

theorem Write.handling_upsert (rows : List Row) (target : ConflictTarget)
    {update : Option UpdateSpec} (hupdate : update ≠ some []) :
    (Write.upsert rows target update).handling =
      .update target (update.getD (.ofColumns (Row.header (rows.map Row.sorted)))) := by
  match update with
  | none => rfl
  | some [] => exact absurd rfl hupdate
  | some (entry :: spec) => rfl

def Handling.violation? (style : ConflictStyle) : Handling → Option Violation
  | fail => none
  | update target _ => if target.isEmpty then some .noConflictTarget else none
  | skip target => if target.isEmpty && style == .merge then some .noMergeTarget else none

namespace Table

def assemble (t : Table) (handling : Handling) (rows : List Row) : Statement :=
  ⟨(handling.render t rows).text, bindings rows handling.assignments⟩

theorem pair_render (t : Table) (handling : Handling) (rows : List Row) :
    Statement.pair (handling.render t rows) (bindings rows handling.assignments) =
      .ok (t.assemble handling rows) :=
  Statement.pair_of_eq (handling.placeholders_render t rows)

theorem insertStatement_eq (t : Table) (rows : List Row) :
    t.insertStatement rows = (Row.normalize rows).map (t.assemble .fail) := by
  unfold insertStatement
  cases Row.normalize rows with
  | error e => rfl
  | ok rows' => exact t.pair_render .fail rows'

theorem upsertStatement_eq (t : Table) (rows : List Row) (target : ConflictTarget)
    {update : Option UpdateSpec} (hupdate : update ≠ some []) :
    t.upsertStatement rows target update =
      if target.isEmpty then .error (.invalid .noConflictTarget)
      else (Row.normalize rows).map
        (t.assemble (.update target (update.getD (.ofColumns (Row.header (rows.map Row.sorted)))))) := by
  unfold upsertStatement
  rw [if_neg hupdate]
  split
  · rfl
  · cases hrows : Row.normalize rows with
    | error e => rfl
    | ok rows' =>
      obtain ⟨-, rfl⟩ := (Row.normalize_eq_ok_iff rows rows').mp hrows
      exact t.pair_render (.update target _) _

theorem insertIgnoreStatement_eq (t : Table) (rows : List Row) (target : ConflictTarget) :
    t.insertIgnoreStatement rows target =
      if target.isEmpty && t.dialect.conflictStyle == .merge then .error (.invalid .noMergeTarget)
      else (Row.normalize rows).map (t.assemble (.skip target)) := by
  unfold insertIgnoreStatement
  split
  · rfl
  · cases Row.normalize rows with
    | error e => rfl
    | ok rows' => exact t.pair_render (.skip target) rows'

theorem statement_eq (t : Table) (w : Write) :
    t.statement w = match w.handling.violation? t.dialect.conflictStyle with
      | some v => .error (.invalid v)
      | none => (Row.normalize w.rows).map (t.assemble w.handling) := by
  cases w with
  | insert rows => exact t.insertStatement_eq rows
  | upsert rows target update =>
    by_cases hupdate : update = some []
    · subst hupdate
      exact t.insertStatement_eq rows
    · rw [Write.handling_upsert rows target hupdate]
      refine (t.upsertStatement_eq rows target hupdate).trans ?_
      cases h : target.isEmpty <;> simp [Handling.violation?, h, Write.rows]
  | insertIgnore rows target =>
    refine (t.insertIgnoreStatement_eq rows (target.getD [])).trans ?_
    simp only [Write.handling, Handling.violation?, Write.rows]
    split <;> rfl

theorem compile_eq (t : Table) (w : Write) :
    t.compile w =
      if w.rows = [] then .ok none
      else match w.handling.violation? t.dialect.conflictStyle with
        | some v => .error (.invalid v)
        | none => (Row.normalize w.rows).map fun rows => some (t.assemble w.handling rows) := by
  simp only [compile, List.isEmpty_iff, statement_eq]
  by_cases hrows : w.rows = []
  · simp only [hrows, if_true]
  · simp only [hrows, if_false]
    cases w.handling.violation? t.dialect.conflictStyle with
    | some v => rfl
    | none => cases Row.normalize w.rows <;> rfl

/-- There is a statement exactly if no target is missing and the rows go together. -/
theorem compile_eq_statement_iff (t : Table) (w : Write) (s : Statement) :
    t.compile w = .ok (some s) ↔
      w.handling.violation? t.dialect.conflictStyle = none ∧ Row.Compatible w.rows ∧
        s = t.assemble w.handling (w.rows.map Row.sorted) := by
  rw [compile_eq]
  by_cases hrows : w.rows = []
  · simp [hrows, Row.Compatible]
  · rw [if_neg hrows]
    cases hviolation : w.handling.violation? t.dialect.conflictStyle with
    | some v => simp
    | none =>
      cases hnormal : Row.normalize w.rows with
      | error e =>
        have hincompatible : ¬ Row.Compatible w.rows := fun h => by
          rw [Row.normalize_of_compatible h] at hnormal
          cases hnormal
        simp [hincompatible, Except.map]
      | ok rows =>
        obtain ⟨hcompatible, rfl⟩ := (Row.normalize_eq_ok_iff _ _).mp hnormal
        simp [hcompatible, Except.map, eq_comm]

theorem compile_eq_none_iff (t : Table) (w : Write) : t.compile w = .ok none ↔ w.rows = [] := by
  rw [compile_eq]
  by_cases hrows : w.rows = []
  · simp [hrows]
  · rw [if_neg hrows]
    cases w.handling.violation? t.dialect.conflictStyle with
    | some v => simp [hrows]
    | none => cases Row.normalize w.rows <;> simp [Except.map, hrows]

/-- A missing target is reported whatever the rows are, and otherwise the rows are at fault. -/
theorem compile_eq_error_iff (t : Table) (w : Write) (e : CompileError) :
    t.compile w = .error e ↔ w.rows ≠ [] ∧
      match w.handling.violation? t.dialect.conflictStyle with
      | some v => e = .invalid v
      | none => Row.normalize w.rows = .error e := by
  rw [compile_eq]
  by_cases hrows : w.rows = []
  · simp [hrows]
  · rw [if_neg hrows]
    cases w.handling.violation? t.dialect.conflictStyle with
    | some v => simp [hrows, eq_comm]
    | none => cases Row.normalize w.rows <;> simp [Except.map, hrows]

theorem compile_of_violation {t : Table} {w : Write} {v : Violation} (hrows : w.rows ≠ [])
    (h : w.handling.violation? t.dialect.conflictStyle = some v) :
    t.compile w = .error (.invalid v) :=
  (t.compile_eq_error_iff w _).mpr ⟨hrows, by rw [h]⟩

theorem compile_of_compatible {t : Table} {w : Write} (hrows : Row.Compatible w.rows)
    (h : w.handling.violation? t.dialect.conflictStyle = none) :
    t.compile w = .ok (some (t.assemble w.handling (w.rows.map Row.sorted))) :=
  (t.compile_eq_statement_iff w _).mpr ⟨h, hrows, rfl⟩

/-- Every fault that keeps a write from being compiled is one of the request. -/
theorem exists_violation_of_compile {t : Table} {w : Write} {e : CompileError}
    (h : t.compile w = .error e) : ∃ v, e = .invalid v := by
  obtain ⟨-, hfault⟩ := (t.compile_eq_error_iff w e).mp h
  split at hfault
  · exact ⟨_, hfault⟩
  · exact Row.exists_violation_of_normalize hfault

end Table

open Fragment (Aligned)

/-- For any rows at all, each fragment that a dialect renders pairs with the list of values that is
bound to it, and so no compiled write is refused for a wrong number of values. -/
theorem Table.slots_align_with_bindings (t : Table) (rows : List Row) (target : ConflictTarget)
    (update : UpdateSpec) :
    Aligned (t.dialect.insert t.name rows)
        (fun spell => t.dialect.insert t.name (rows.map (Row.spelled spell)))
        (bindings rows []) ∧
      Aligned (t.dialect.insertIgnore t.name rows target)
        (fun spell => t.dialect.insertIgnore t.name (rows.map (Row.spelled spell)) target)
        (bindings rows []) ∧
      Aligned (t.dialect.upsert t.name rows target update)
        (fun spell => t.dialect.upsert t.name (rows.map (Row.spelled spell)) target
          (update.map (UpdateEntry.spelled spell)))
        (bindings rows update) ∧
      ∀ (w : Write) (placeholders values : Nat),
        t.compile w ≠ .error (.misbound placeholders values) := by
  refine ⟨t.dialect.aligned_insert t.name rows, t.dialect.aligned_insertIgnore t.name rows target,
    t.dialect.aligned_upsert t.name rows target update, ?_⟩
  intro w placeholders values h
  obtain ⟨v, hv⟩ := exists_violation_of_compile h
  cases hv

end BulkWrite
