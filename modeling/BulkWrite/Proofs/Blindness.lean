import Mathlib
import BulkWrite.Proofs.Compilation

/-!
Bound values do not show. All content is masked: sorting, the check of the columns, the resolution of
an omitted update spec and every renderer give the same for a request and for its mask
(`compile_blind`).
-/
namespace BulkWrite

inductive Value.SameShape : Value → Value → Prop where
  | bound (v w : SqlValue) : SameShape (bound v) (bound w)
  | raw (sql : String) : SameShape (raw sql) (raw sql)

/-- The rows have the same columns in the same order, and values of the same shape in them. -/
def Row.SameShape (r s : Row) : Prop :=
  List.Forall₂ (fun e f => e.1 = f.1 ∧ e.2.SameShape f.2) r.entries s.entries

inductive UpdateEntry.SameShape : UpdateEntry → UpdateEntry → Prop where
  | inserted (column : String) : SameShape (inserted column) (inserted column)
  | assign (column : String) {v w : Value} (h : v.SameShape w) :
    SameShape (assign column v) (assign column w)

/-- The requests are of one kind, with one conflict target, and their rows and assignments match one
by one. -/
inductive Write.SameShape : Write → Write → Prop where
  | insert {rows rows' : List Row} (hrows : List.Forall₂ Row.SameShape rows rows') :
    SameShape (insert rows) (insert rows')
  | upsert {rows rows' : List Row} (hrows : List.Forall₂ Row.SameShape rows rows')
    (target : ConflictTarget) {update update' : Option UpdateSpec}
    (hupdate : Option.Rel (List.Forall₂ UpdateEntry.SameShape) update update') :
    SameShape (upsert rows target update) (upsert rows' target update')
  | insertIgnore {rows rows' : List Row} (hrows : List.Forall₂ Row.SameShape rows rows')
    (target : Option ConflictTarget) :
    SameShape (insertIgnore rows target) (insertIgnore rows' target)

/-- What can be seen of a statement without looking at its values. -/
def Statement.visible (s : Statement) : String × Nat := (s.sql, s.bindings.length)

/-! Masks. -/

/-- The value without its content, if it is bound. -/
def Value.masked : Value → Value
  | bound _ => bound .null
  | raw sql => raw sql

def Row.masked (r : Row) : Row :=
  ⟨r.entries.map fun e => (e.1, e.2.masked), by
    rw [Entries.names_map_snd]
    exact r.nodup⟩

def UpdateEntry.masked : UpdateEntry → UpdateEntry
  | inserted column => inserted column
  | assign column value => assign column value.masked

def UpdateSpec.masked (update : UpdateSpec) : UpdateSpec := update.map UpdateEntry.masked

def Handling.masked : Handling → Handling
  | fail => fail
  | update target spec => update target spec.masked
  | skip target => skip target

def Write.masked : Write → Write
  | insert rows => insert (rows.map Row.masked)
  | upsert rows target update => upsert (rows.map Row.masked) target (update.map UpdateSpec.masked)
  | insertIgnore rows target => insertIgnore (rows.map Row.masked) target

theorem Value.SameShape.masked_eq {v w : Value} (h : v.SameShape w) : v.masked = w.masked := by
  cases h <;> rfl

theorem Row.SameShape.masked_eq {r s : Row} (h : r.SameShape s) : r.masked = s.masked := by
  apply Row.ext
  refine map_eq_of_forall₂ (fun e f hentry => ?_) h
  obtain ⟨hcolumn, hvalue⟩ := hentry
  rw [hcolumn, hvalue.masked_eq]

theorem UpdateEntry.SameShape.masked_eq {e f : UpdateEntry} (h : e.SameShape f) :
    e.masked = f.masked := by
  cases h with
  | inserted column => rfl
  | assign column hvalue => rw [masked, masked, hvalue.masked_eq]

theorem Row.map_masked_eq {rows rows' : List Row} (h : List.Forall₂ SameShape rows rows') :
    rows.map masked = rows'.map masked :=
  map_eq_of_forall₂ (fun _ _ hrow => hrow.masked_eq) h

theorem UpdateSpec.masked_eq {update update' : UpdateSpec}
    (h : List.Forall₂ UpdateEntry.SameShape update update') : update.masked = update'.masked :=
  map_eq_of_forall₂ (fun _ _ hentry => hentry.masked_eq) h

theorem Write.SameShape.masked_eq {w w' : Write} (h : w.SameShape w') : w.masked = w'.masked := by
  cases h with
  | insert hrows => rw [masked, masked, Row.map_masked_eq hrows]
  | upsert hrows target hupdate =>
    rw [masked, masked, Row.map_masked_eq hrows]
    cases hupdate with
    | none => rfl
    | some hspec => rw [Option.map_some, Option.map_some, UpdateSpec.masked_eq hspec]
  | insertIgnore hrows target => rw [masked, masked, Row.map_masked_eq hrows]

namespace Row

@[simp] theorem columns_masked (r : Row) : r.masked.columns = r.columns :=
  Entries.names_map_snd _ r.entries

@[simp] theorem values_masked (r : Row) : r.masked.values = r.values.map Value.masked := by
  simp [values, masked, Function.comp_def]

@[simp] theorem size_masked (r : Row) : r.masked.size = r.size := by
  simp [size, masked]

@[simp] theorem isEmpty_masked (r : Row) : r.masked.isEmpty = r.isEmpty := by
  simp [isEmpty, masked]

@[simp] theorem header_masked (rows : List Row) : header (rows.map masked) = header rows := by
  cases rows <;> simp [header]

theorem sorted_masked (r : Row) : r.masked.sorted = r.sorted.masked := by
  apply Row.ext
  have hkey : ∀ e ∈ r.entries, ∀ f ∈ r.entries,
      entryLe e f = entryLe (e.1, e.2.masked) (f.1, f.2.masked) := fun _ _ _ _ => rfl
  exact (List.map_mergeSort hkey).symm

theorem map_sorted_masked (rows : List Row) :
    (rows.map masked).map sorted = (rows.map sorted).map masked := by
  simp [Function.comp_def, sorted_masked]

@[simp] theorem sameColumns_masked (r s : Row) : r.masked.sameColumns s.masked = r.sameColumns s := by
  have hcontains : s.masked.contains = s.contains := by
    funext column
    rw [Bool.eq_iff_iff, contains_iff, contains_iff, columns_masked]
  rw [sameColumns, sameColumns, size_masked, size_masked, columns_masked, hcontains]

theorem normalize_masked (rows : List Row) :
    normalize (rows.map masked) = (normalize rows).map (List.map masked) := by
  unfold normalize
  rw [map_sorted_masked]
  cases rows.map sorted with
  | nil => rfl
  | cons first rest =>
    simp only [List.map_cons, isEmpty_masked]
    rw [← List.map_cons, firstMismatch?_map sameColumns_masked]
    split
    · rfl
    · cases firstMismatch? first (first :: rest) with
      | none => rfl
      | some mismatch => simp [Except.map]

end Row

/-! Every renderer gives the same fragment for the mask. -/

namespace Dialect

variable (d : Dialect)

@[simp] theorem parameter_masked (v : Value) : d.parameter v.masked = d.parameter v := by
  cases v <;> rfl

@[simp] theorem valueGroup_masked (row : Row) : d.valueGroup row.masked = d.valueGroup row := by
  simp [valueGroup, Function.comp_def]

@[simp] theorem valueGroups_masked (rows : List Row) :
    d.valueGroups (rows.map Row.masked) = d.valueGroups rows := by
  simp [valueGroups, Function.comp_def]

@[simp] theorem insert_masked (table : String) (rows : List Row) :
    d.insert table (rows.map Row.masked) = d.insert table rows := by
  simp [insert, insertWith]

@[simp] theorem assignment_masked (entry : UpdateEntry) :
    d.assignment entry.masked = d.assignment entry := by
  cases entry with
  | inserted column => rfl
  | assign column value => simp [UpdateEntry.masked, assignment]

@[simp] theorem assignments_masked (spec : UpdateSpec) :
    d.assignments spec.masked = d.assignments spec := by
  simp [assignments, UpdateSpec.masked, Function.comp_def]

end Dialect

@[simp] theorem UpdateSpec.isEmpty_masked (spec : UpdateSpec) :
    List.isEmpty spec.masked = List.isEmpty spec := by
  simp [masked]

theorem Merge.statement_masked (table : String) (rows : List Row) (target : ConflictTarget)
    (spec : UpdateSpec) :
    Merge.statement table (rows.map Row.masked) target spec.masked =
      Merge.statement table rows target spec := by
  have hsource : Merge.source table (rows.map Row.masked) target = Merge.source table rows target := by
    simp only [Merge.source, Dialect.valueGroups_masked, Row.header_masked]
  have hmatched : Merge.whenMatched spec.masked = Merge.whenMatched spec := by
    simp only [Merge.whenMatched, UpdateSpec.isEmpty_masked, Dialect.assignments_masked]
  rw [Merge.statement, Merge.statement, hsource, hmatched, Row.header_masked]

theorem Handling.render_masked (t : Table) (rows : List Row) (handling : Handling) :
    handling.masked.render t (rows.map Row.masked) = handling.render t rows := by
  cases handling with
  | fail => exact t.dialect.insert_masked t.name rows
  | update target spec =>
    simp only [masked, render, Dialect.upsert]
    cases t.dialect.conflictStyle with
    | onConflict => simp only [Dialect.insert_masked, Dialect.assignments_masked]
    | onDuplicateKey => simp only [Dialect.insert_masked, Dialect.assignments_masked]
    | merge => exact Merge.statement_masked t.name rows target spec
  | skip target =>
    simp only [masked, render, Dialect.insertIgnore]
    cases t.dialect.conflictStyle with
    | onConflict => simp only [Dialect.insert_masked]
    | onDuplicateKey => simp only [Dialect.insert_masked]
    | merge => exact Merge.statement_masked t.name rows target []

/-! Compiling a mask. -/

theorem Handling.violation?_masked (style : ConflictStyle) (handling : Handling) :
    handling.masked.violation? style = handling.violation? style := by
  cases handling <;> rfl

@[simp] theorem Write.rows_masked (w : Write) : w.masked.rows = w.rows.map Row.masked := by
  cases w <;> rfl

@[simp] theorem UpdateSpec.masked_ofColumns (columns : List String) :
    (ofColumns columns).masked = ofColumns columns := by
  simp [masked, ofColumns, UpdateEntry.masked, Function.comp_def]

theorem Write.handling_masked (w : Write) : w.masked.handling = w.handling.masked := by
  match w with
  | .insert _ => rfl
  | .insertIgnore _ _ => rfl
  | .upsert _ _ (some []) => rfl
  | .upsert _ _ (some (entry :: entries)) => rfl
  | .upsert rows target none =>
    simp only [masked, handling, Handling.masked, Option.map_none, Option.getD_none,
      Row.map_sorted_masked, Row.header_masked, UpdateSpec.masked_ofColumns]

namespace Table

variable (t : Table)

theorem visible_assemble_masked (handling : Handling) (rows : List Row) :
    (t.assemble handling.masked (rows.map Row.masked)).visible = (t.assemble handling rows).visible := by
  simp only [Statement.visible, assemble]
  rw [← Handling.placeholders_render t, ← Handling.placeholders_render t, Handling.render_masked]

theorem visible_compile_masked (w : Write) :
    (t.compile w.masked).map (Option.map Statement.visible) =
      (t.compile w).map (Option.map Statement.visible) := by
  rw [compile_eq, compile_eq, Write.handling_masked, Handling.violation?_masked, Write.rows_masked,
    Row.normalize_masked]
  by_cases hrows : w.rows = []
  · simp [hrows]
  · rw [if_neg hrows, if_neg (by simpa using hrows)]
    cases w.handling.violation? t.dialect.conflictStyle with
    | some v => rfl
    | none =>
      cases Row.normalize w.rows with
      | error e => rfl
      | ok rows => simp [Except.map, visible_assemble_masked]

/-- For two requests of one shape, either there is no statement, or both are refused with the same
error and so with the same message, or both have a statement, with one text and equally many
values. -/
theorem compile_blind {w w' : Write} (h : w.SameShape w') :
    (t.compile w).map (Option.map Statement.visible) =
      (t.compile w').map (Option.map Statement.visible) := by
  rw [← t.visible_compile_masked w, h.masked_eq, t.visible_compile_masked w']

end Table

/-- The bound values of the two requests have nothing in common. -/
theorem Table.compile_blind_hostile_values :
    let w := Write.upsert [.ofList [("b", .raw "now()"), ("a", .bound (.text "'?\x60"))]] ["a"]
      (some [.assign "b" (.bound (.blob [0, 255])), .inserted "a"])
    let w' := Write.upsert [.ofList [("b", .raw "now()"), ("a", .bound .null)]] ["a"]
      (some [.assign "b" (.bound (.int (-1))), .inserted "a"])
    w.SameShape w' ∧
      (Table.compile ⟨.mySql, "t"⟩ w).map (Option.map Statement.visible) =
        (Table.compile ⟨.mySql, "t"⟩ w').map (Option.map Statement.visible) ∧
      Table.compile ⟨.mySql, "t"⟩ w' = .ok (some {
        sql := "INSERT INTO \x60t\x60 (\x60a\x60, \x60b\x60) VALUES (?, now()) " ++
          "ON DUPLICATE KEY UPDATE \x60b\x60 = ?, \x60a\x60 = VALUES(\x60a\x60)"
        bindings := [.null, .int (-1)] }) := by
  intro w w'
  have hrow : Row.SameShape (.ofList [("b", .raw "now()"), ("a", .bound (.text "'?\x60"))])
      (.ofList [("b", .raw "now()"), ("a", .bound .null)]) :=
    .cons ⟨rfl, .raw _⟩ (.cons ⟨rfl, .bound _ _⟩ .nil)
  have hspec : List.Forall₂ UpdateEntry.SameShape
      [.assign "b" (.bound (.blob [0, 255])), .inserted "a"]
      [.assign "b" (.bound (.int (-1))), .inserted "a"] :=
    .cons (.assign _ (.bound _ _)) (.cons (.inserted _) .nil)
  have h : w.SameShape w' := .upsert (.cons hrow .nil) ["a"] (.some hspec)
  refine ⟨h, Table.compile_blind _ h, ?_⟩
  simp only [String.reduceAppend]
  cbv

end BulkWrite
