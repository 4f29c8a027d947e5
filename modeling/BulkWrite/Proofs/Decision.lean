import BulkWrite.Proofs.CanonicalForm
import BulkWrite.Proofs.Refinement

/-!
What decides the outcome of a write: first whether there are rows, then an update spec that is
explicitly empty, then the conflict target, and the rows at last. Main statement: `compile_decides`.
-/
namespace BulkWrite.Table

variable {t : Table} {rows : List Row}

theorem compile_upsert_of_target (hrows : rows ≠ []) {target : ConflictTarget} (htarget : target ≠ [])
    {spec : UpdateSpec} (hspec : spec ≠ []) :
    t.compile (.upsert rows target (some spec)) =
      (Row.normalize rows).map fun normal => some (t.assemble (.update target spec) normal) := by
  have hhandling : (Write.upsert rows target (some spec)).handling = .update target spec :=
    Write.handling_upsert rows target (by simpa using hspec)
  have htargeted : (Handling.update target spec).violation? t.dialect.conflictStyle = none := by
    simp [Handling.violation?, htarget]
  rw [compile_eq, hhandling, htargeted]
  exact if_neg hrows

theorem compile_insertIgnore_without_target (ht : t.dialect = .sqlServer) (hrows : rows ≠ [])
    {target : Option ConflictTarget} (htarget : target.getD [] = []) :
    t.compile (.insertIgnore rows target) = .error (.invalid .noMergeTarget) := by
  have hviolation : (Write.insertIgnore rows target).handling.violation? t.dialect.conflictStyle =
      some .noMergeTarget := by
    simp [Write.handling, Handling.violation?, htarget, ht, Dialect.conflictStyle]
  exact compile_of_violation hrows hviolation

/-- Without rows there is no statement and no error. With rows, an omitted update spec stands for all
columns of the first row in order; an empty one makes a plain insert; a missing target is reported
whatever the rows are; and otherwise the rows decide, with the error of their normalization. Every
error is one of the request. -/
theorem compile_decides (t : Table) :
    (∀ w, t.compile w = .ok none ↔ w.rows = []) ∧
      (∀ w e, t.compile w = .error e → ∃ v, e = .invalid v) ∧
      (∀ first rest columns target, first.columns ≠ [] → Row.ListsColumns first columns →
        t.compile (.upsert (first :: rest) target none) =
          t.compile (.upsert (first :: rest) target (some (.ofColumns columns)))) ∧
      ∀ rows ≠ [],
        (∀ target ≠ [],
          t.compile (.upsert rows target (some [])) = t.compile (.insert rows) ∧
            ∀ spec ≠ [],
              ((∃ s, t.compile (.upsert rows target (some spec)) = .ok (some s)) ↔
                ∃ normal, Row.normalize rows = .ok normal) ∧
              ∀ e, t.compile (.upsert rows target (some spec)) = .error e ↔
                Row.normalize rows = .error e) ∧
        (∀ update ≠ some [],
          t.compile (.upsert rows [] update) = .error (.invalid .noConflictTarget)) ∧
        (t.dialect = .sqlServer → ∀ target ∈ [none, some []],
          t.compile (.insertIgnore rows target) = .error (.invalid .noMergeTarget)) := by
  refine ⟨t.compile_eq_none_iff, fun w e => exists_violation_of_compile, ?_, fun rows hrows => ?_⟩
  · intro first rest columns target hfirst hcolumns
    have hne : Row.header (first :: rest) ≠ [] := hfirst
    have hheader : Row.header ((first :: rest).map Row.sorted) = columns := by
      rw [(Row.listsColumns_iff first columns).1 hcolumns]
      exact first.columns_sorted
    rw [t.compile_upsert_none (.inr hne), hheader]
  · refine ⟨fun target htarget => ⟨t.compile_upsert_empty_spec rows target, fun spec hspec => ?_⟩,
      fun update hupdate => (t.upsert_refused_iff rows [] update).2 ⟨hrows, rfl, hupdate⟩,
      fun ht target htarget => compile_insertIgnore_without_target ht hrows ?_⟩
    · rw [compile_upsert_of_target hrows htarget hspec]
      cases Row.normalize rows with
      | error e => simp [Except.map]
      | ok normal => simp [Except.map]
    · rcases List.mem_pair.1 htarget with rfl | rfl <;> rfl

/-- One row alone is accepted. A second one lacks a column, which is found out only if there is a
target. -/
theorem compile_decides_missing_column :
    let t : Table := ⟨.sqlServer, "t"⟩
    let first := Row.ofList [("b", .bound (.int 1)), ("a", .raw "now()")]
    let rows := [first, .ofList [("b", .bound .null)]]
    first.columns ≠ [] ∧ first.ListsColumns ["a", "b"] ∧ rows ≠ [] ∧
      (∃ s, t.compile (.upsert [first] ["a"] (some [.inserted "b"])) = .ok (some s)) ∧
      t.compile (.upsert rows ["a"] none) =
        t.compile (.upsert rows ["a"] (some (.ofColumns ["a", "b"]))) ∧
      t.compile (.upsert rows ["a"] (some [])) = t.compile (.insert rows) ∧
      t.compile (.upsert rows ["a"] (some [.inserted "b"])) =
        .error (.invalid (.columnMismatch 1 ["b"] ["a", "b"])) ∧
      t.compile (.upsert rows [] none) = .error (.invalid .noConflictTarget) ∧
      t.compile (.insertIgnore rows none) = .error (.invalid .noMergeTarget) := by
  intro t first rows
  obtain ⟨-, -, hdefault, hrows⟩ := compile_decides t
  have hcolumns : first.ListsColumns ["a", "b"] := ⟨by decide, by decide⟩
  have hne : rows ≠ [] := List.cons_ne_nil _ _
  obtain ⟨haccepts, -, -⟩ := hrows [first] (List.cons_ne_nil _ _)
  obtain ⟨htargeted, hmissing, hmerge⟩ := hrows rows hne
  obtain ⟨-, hspec⟩ := haccepts ["a"] (by simp)
  obtain ⟨hstatement, -⟩ := hspec [.inserted "b"] (by simp)
  obtain ⟨hempty, hspec'⟩ := htargeted ["a"] (by simp)
  obtain ⟨-, herror⟩ := hspec' [.inserted "b"] (by simp)
  exact ⟨by decide, hcolumns, hne, hstatement.2 ⟨[first.sorted], by cbv⟩,
    hdefault first _ _ ["a"] (by decide) hcolumns, hempty, (herror _).2 (by cbv),
    hmissing none (by simp), hmerge rfl none (by simp)⟩

end BulkWrite.Table
