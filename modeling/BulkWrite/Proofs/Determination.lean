import BulkWrite.Proofs.Cells
import BulkWrite.Proofs.Recovery

/-!
Statements determine requests. The text of a statement without raw expressions gives everything but
the values, and with it the length of each value group, so that the list of values can be divided
among the rows and the assignments. Main statement: `compile_determines`.
-/
namespace BulkWrite

/-- Neither the rows nor the assignments contain an expression. -/
def Write.AllBound (w : Write) : Prop :=
  ∀ v ∈ w.values, v.isRaw = false

theorem map_bound_boundValues {vs : List Value} (h : ∀ v ∈ vs, v.isRaw = false) :
    (boundValues vs).map Value.bound = vs := by
  induction vs with
  | nil => rfl
  | cons v vs ih =>
    have hrest := ih fun x hx => h x (List.mem_cons_of_mem v hx)
    cases v with
    | bound x => simpa [boundValues] using hrest
    | raw sql => exact absurd (h _ List.mem_cons_self) (by simp [Value.isRaw])

theorem boundValues_inj {vs ws : List Value} (h : ∀ v ∈ vs, v.isRaw = false)
    (h' : ∀ v ∈ ws, v.isRaw = false) (heq : boundValues vs = boundValues ws) : vs = ws := by
  rw [← map_bound_boundValues h, heq, map_bound_boundValues h']

namespace Row

theorem eq_of_map_values {columns : List String} {rows rows' : List Row}
    (h : ∀ r ∈ rows, r.columns = columns) (h' : ∀ r ∈ rows', r.columns = columns)
    (heq : rows.map values = rows'.map values) : rows = rows' := by
  induction rows generalizing rows' with
  | nil => simpa [eq_comm] using heq
  | cons r rows ih =>
    cases rows' with
    | nil => simp at heq
    | cons r' rows' =>
      rw [List.forall_mem_cons] at h h'
      rw [List.map_cons, List.map_cons, List.cons.injEq] at heq
      obtain ⟨hvalues, hrest⟩ := heq
      have hrow := eq_of_columns_of_values (h.1.trans h'.1.symm) hvalues
      rw [hrow, ih h.2 h'.2 hrest]

end Row

theorem Dialect.text_valueGroups (d : Dialect) {rows : List Row}
    (h : ∀ r ∈ rows, ∀ v ∈ r.values, v.isRaw = false) :
    (d.valueGroups rows).text = markGroups (rows.map Row.size) := by
  have hgroup : ∀ r ∈ rows, (d.valueGroup r).text = markGroup r.size := by
    intro r hr
    have hmarks : r.values.map Value.shown = List.replicate r.size "?" := by
      rw [← r.length_values]
      refine List.eq_replicate_iff.mpr ⟨List.length_map _, fun text htext => ?_⟩
      obtain ⟨v, hv, rfl⟩ := List.mem_map.mp htext
      cases v with
      | bound x => rfl
      | raw sql => exact absurd (h r hr _ hv) (by simp [Value.isRaw])
    simp [valueGroup, markGroup, ← hmarks, Function.comp_def]
  simp only [valueGroups, Fragment.text_join, markGroups, List.map_map]
  exact congrArg _ (List.map_congr_left hgroup)

theorem UpdateSpec.eq_of_outline {spec spec' : UpdateSpec}
    (houtline : spec.map UpdateEntry.outline = spec'.map UpdateEntry.outline)
    (hvalues : spec.assignedValues = spec'.assignedValues) : spec = spec' := by
  induction spec generalizing spec' with
  | nil => simpa [eq_comm] using houtline
  | cons entry spec ih =>
    cases spec' with
    | nil => simp at houtline
    | cons entry' spec' =>
      rw [List.map_cons, List.map_cons, List.cons.injEq] at houtline
      obtain ⟨hentry, hrest⟩ := houtline
      match entry, entry' with
      | .inserted column, .inserted column' =>
        obtain ⟨rfl, -⟩ := Prod.mk.inj hentry
        rw [ih hrest hvalues]
      | .assign column value, .assign column' value' =>
        obtain ⟨rfl, -⟩ := Prod.mk.inj hentry
        obtain ⟨rfl, htail⟩ := List.cons.inj hvalues
        rw [ih hrest htail]
      | .inserted _, .assign _ _ | .assign _ _, .inserted _ => simp [UpdateEntry.outline] at hentry

/-- The sizes of the rows divide a list of values among the rows and the assignments. -/
theorem bindings_inj {rows rows' : List Row} {spec spec' : UpdateSpec}
    (h : ∀ v ∈ rows.flatMap Row.values ++ spec.assignedValues, v.isRaw = false)
    (h' : ∀ v ∈ rows'.flatMap Row.values ++ spec'.assignedValues, v.isRaw = false)
    (hsizes : rows.map Row.size = rows'.map Row.size)
    (heq : bindings rows spec = bindings rows' spec') :
    rows.map Row.values = rows'.map Row.values ∧ spec.assignedValues = spec'.assignedValues := by
  have hall := boundValues_inj h h' heq
  have hlengths : (rows.map Row.values).map List.length = (rows'.map Row.values).map List.length := by
    simpa [Function.comp_def] using hsizes
  have hlength : (rows.flatMap Row.values).length = (rows'.flatMap Row.values).length := by
    rw [List.flatMap_def, List.flatMap_def, List.length_flatten, List.length_flatten, hlengths]
  obtain ⟨hrows, hspec⟩ := List.append_inj hall hlength
  exact ⟨List.eq_iff_flatten_eq.mpr ⟨hrows, hlengths⟩, hspec⟩

theorem Write.AllBound.legible {w : Write} (h : w.AllBound) {style : ConflictStyle}
    (hrows : Row.Compatible w.rows) (hviolation : w.handling.violation? style = none) :
    w.handling.Legible style where
  violation_eq_none := hviolation
  spec_ne_nil _ _ hhandling := w.spec_ne_nil hrows hhandling
  isRaw_eq_false v hv := h v (Write.mem_values_of_mem_assigned hv)

/-- Two requests without expressions that one dialect compiles to the same statement ask for the same
operation on the same table, with the same rows up to the order of their columns, the same
assignments and, if it is written at all, the same conflict target. -/
theorem Table.compile_determines {d : Dialect} {name name' : String} {w w' : Write} {s : Statement}
    (h : Table.compile ⟨d, name⟩ w = .ok (some s)) (h' : Table.compile ⟨d, name'⟩ w' = .ok (some s))
    (hbound : w.AllBound) (hbound' : w'.AllBound) :
    w.handling.operation = w'.handling.operation ∧ name = name' ∧
      (∃ rows, Row.normalize w.rows = .ok rows ∧ Row.normalize w'.rows = .ok rows) ∧
      w.handling.assignments = w'.handling.assignments ∧
      w.handling.writtenTarget d.conflictStyle = w'.handling.writtenTarget d.conflictStyle := by
  obtain ⟨hviolation, hrows, rfl⟩ := (compile_eq_statement_iff _ w s).mp h
  obtain ⟨hviolation', hrows', heq⟩ := (compile_eq_statement_iff _ w' _).mp h'
  have htext := congrArg Statement.sql heq
  have hvalues := congrArg Statement.bindings heq
  rw [sql_assemble _ hrows, sql_assemble _ hrows',
    d.text_valueGroups fun r hr v hv => hbound v (Write.mem_values_of_mem_sorted hr hv),
    d.text_valueGroups fun r hr v hv => hbound' v (Write.mem_values_of_mem_sorted hr hv)] at htext
  obtain ⟨hname, hheader, hsizes, halike⟩ := Handling.layout_inj hrows.header_ne_nil
    hrows'.header_ne_nil (by simpa using hrows.1) (by simpa using hrows'.1)
    (hbound.legible hrows hviolation) (hbound'.legible hrows' hviolation') htext
  obtain ⟨hcells, hassigned⟩ := bindings_inj
    (fun v hv => hbound v (Write.mem_values_of_mem_normal hv))
    (fun v hv => hbound' v (Write.mem_values_of_mem_normal hv)) hsizes hvalues
  -- Both lists of rows have the header of the first one, so their values make them equal.
  have hcolumns : ∀ r ∈ w.rows.map Row.sorted, r.columns = Row.header (w.rows.map Row.sorted) :=
    List.forall_mem_map.mpr fun r hr => hrows.columns_sorted_eq hr
  have hcolumns' : ∀ r ∈ w'.rows.map Row.sorted, r.columns = Row.header (w.rows.map Row.sorted) := by
    rw [hheader]
    exact List.forall_mem_map.mpr fun r hr => hrows'.columns_sorted_eq hr
  have hsorted := Row.eq_of_map_values hcolumns hcolumns' hcells
  refine ⟨halike.operation_eq, hname, ⟨w.rows.map Row.sorted, ?_, ?_⟩, ?_, halike.writtenTarget_eq⟩
  · exact Row.normalize_of_compatible hrows
  · rw [hsorted]
    exact Row.normalize_of_compatible hrows'
  · exact UpdateSpec.eq_of_outline halike.outline_eq hassigned

/-- An omitted update spec, and one that names the sorted columns. -/
theorem Table.compile_determines_omitted :
    let w := Write.upsert [.ofList [("b", .bound .null), ("a]", .bound (.int 7))]] ["a]"] none
    let w' := Write.upsert [.ofList [("a]", .bound (.int 7)), ("b", .bound .null)]] ["a]"]
      (some [.inserted "a]", .inserted "b"])
    let s : Statement := {
      sql := "MERGE [t, (?].[INSERT] USING (VALUES (?, ?)) [upsert_source] ([a]]], [b]) ON " ++
        "[upsert_source].[a]]] = [t, (?].[INSERT].[a]]] WHEN MATCHED THEN UPDATE SET " ++
        "[a]]] = [upsert_source].[a]]], [b] = [upsert_source].[b] " ++
        "WHEN NOT MATCHED THEN INSERT ([a]]], [b]) VALUES ([a]]], [b]);"
      bindings := [.int 7, .null] }
    Table.compile ⟨.sqlServer, "t, (?.INSERT"⟩ w = .ok (some s) ∧
      Table.compile ⟨.sqlServer, "t, (?.INSERT"⟩ w' = .ok (some s) ∧ w.AllBound ∧ w'.AllBound ∧
      w.handling.operation = w'.handling.operation ∧
      (∃ rows, Row.normalize w.rows = .ok rows ∧ Row.normalize w'.rows = .ok rows) ∧
      w.handling.assignments = w'.handling.assignments ∧
      w.handling.writtenTarget .merge = w'.handling.writtenTarget .merge := by
  intro w w' s
  have h : Table.compile ⟨.sqlServer, "t, (?.INSERT"⟩ w = .ok (some s) := by
    simp only [s, String.reduceAppend]
    cbv
  have h' : Table.compile ⟨.sqlServer, "t, (?.INSERT"⟩ w' = .ok (some s) := by
    simp only [s, String.reduceAppend]
    cbv
  have hbound : w.AllBound := by
    unfold Write.AllBound
    decide
  have hbound' : w'.AllBound := by
    unfold Write.AllBound
    decide
  obtain ⟨hoperation, -, hrows, hassignments, htarget⟩ := compile_determines h h' hbound hbound'
  exact ⟨h, h', hbound, hbound', hoperation, hrows, hassignments, htarget⟩

end BulkWrite
