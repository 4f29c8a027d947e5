import BulkWrite.Conflict
import BulkWrite.Statement
import Mathlib.Data.List.Basic

/-!
Slots stand where values belong. The text of a fragment and the list of its values come from two
traversals of a request; `Aligned` says that they meet in the same order, by comparing the text with
that of the same request after every bound value has been spelled out as an expression.
-/
namespace BulkWrite

/-- The value as an expression, if it would be bound. -/
def Value.spelled (spell : SqlValue → String) : Value → Value
  | bound v => raw (spell v)
  | raw sql => raw sql

def Row.spelled (spell : SqlValue → String) (r : Row) : Row :=
  ⟨r.entries.map fun e => (e.1, e.2.spelled spell), by
    rw [Entries.names_map_snd]
    exact r.nodup⟩

def UpdateEntry.spelled (spell : SqlValue → String) : UpdateEntry → UpdateEntry
  | inserted column => inserted column
  | assign column value => assign column (value.spelled spell)

namespace Fragment

/-- Pieces of text with values between them, of which there is one less. -/
def interleave : List String → List String → String
  | [piece], [] => piece
  | piece :: pieces, value :: values => piece ++ value ++ interleave pieces values
  | _, _ => ""

/-- The last of the first pieces and the first of the second ones become a single piece. -/
def glue : List String → List String → List String
  | [p], q :: qs => (p ++ q) :: qs
  | p :: ps, qs => p :: glue ps qs
  | [], qs => qs

/-- `fragment` has one slot for each of `values`, in their order, and spelling out all values writes
each of them where its slot was and changes nothing else. -/
structure Aligned (fragment : Fragment) (spelled : (SqlValue → String) → Fragment)
    (values : List SqlValue) : Prop where
  placeholders_eq : fragment.placeholders = values.length
  exists_pieces : ∃ pieces : List String, pieces.length = values.length + 1 ∧
    fragment.text = interleave pieces (values.map fun _ => "?") ∧
    ∀ spell, (spelled spell).text = interleave pieces (values.map spell)

theorem length_glue {ps qs : List String} (hp : ps ≠ []) (hq : qs ≠ []) :
    (glue ps qs).length + 1 = ps.length + qs.length := by
  fun_induction glue ps qs with
  | case1 p q qs =>
    simp
    omega
  | case2 p ps qs hne ih =>
    have hps : ps ≠ [] := by
      rintro rfl
      obtain ⟨q, qs', rfl⟩ := List.exists_cons_of_ne_nil hq
      exact hne q qs' rfl rfl
    have hlen := ih hps hq
    simp only [List.length_cons]
    omega
  | case3 qs => exact absurd rfl hp

theorem interleave_glue {ps qs vs ws : List String} (hp : ps.length = vs.length + 1)
    (hq : qs.length = ws.length + 1) :
    interleave (glue ps qs) (vs ++ ws) = interleave ps vs ++ interleave qs ws := by
  induction ps generalizing vs with
  | nil => simp at hp
  | cons p ps ih =>
    cases vs with
    | nil =>
      have hps : ps = [] := List.length_eq_zero_iff.mp (by simpa using hp)
      subst hps
      cases qs with
      | nil => simp at hq
      | cons q qs =>
        cases ws with
        | nil =>
          have hqs : qs = [] := List.length_eq_zero_iff.mp (by simpa using hq)
          simp [glue, interleave, hqs]
        | cons w ws => simp [glue, interleave, String.append_assoc]
    | cons v vs =>
      have hlen : ps.length = vs.length + 1 := by simpa using hp
      obtain ⟨p', ps', rfl⟩ : ∃ p' ps', ps = p' :: ps' := List.exists_cons_of_length_eq_add_one hlen
      simp only [glue, interleave, List.cons_append, ih hlen, String.append_assoc]

namespace Aligned

theorem ofText (s : String) : Aligned (.ofText s) (fun _ => .ofText s) [] where
  placeholders_eq := rfl
  exists_pieces := ⟨[s], rfl, rfl, fun _ => rfl⟩

theorem empty : Aligned .empty (fun _ => .empty) [] := ofText ""

theorem slot (v : SqlValue) : Aligned (.slot "?") (fun spell => .ofText (spell v)) [v] where
  placeholders_eq := rfl
  exists_pieces := ⟨["", ""], rfl, rfl, fun spell => by simp [interleave]⟩

theorem append {f g : Fragment} {f' g' : (SqlValue → String) → Fragment} {vs ws : List SqlValue}
    (hf : Aligned f f' vs) (hg : Aligned g g' ws) :
    Aligned (f ++ g) (fun spell => f' spell ++ g' spell) (vs ++ ws) where
  placeholders_eq := by simp [hf.placeholders_eq, hg.placeholders_eq]
  exists_pieces := by
    obtain ⟨ps, hps, hft, hft'⟩ := hf.exists_pieces
    obtain ⟨qs, hqs, hgt, hgt'⟩ := hg.exists_pieces
    refine ⟨glue ps qs, ?_, ?_, fun spell => ?_⟩
    · have hp : ps ≠ [] := List.ne_nil_of_length_eq_add_one hps
      have hq : qs ≠ [] := List.ne_nil_of_length_eq_add_one hqs
      have hlen := length_glue hp hq
      rw [List.length_append]
      omega
    · rw [text_append, hft, hgt, List.map_append,
        interleave_glue (by simpa using hps) (by simpa using hqs)]
    · rw [text_append, hft', hgt', List.map_append,
        interleave_glue (by simpa using hps) (by simpa using hqs)]

theorem parenthesized {f : Fragment} {f' : (SqlValue → String) → Fragment} {vs : List SqlValue}
    (h : Aligned f f' vs) : Aligned f.parenthesized (fun spell => (f' spell).parenthesized) vs := by
  simp only [parenthesized_eq]
  simpa using ((ofText "(").append h).append (ofText ")")

theorem join {α : Type} (separator : String) (xs : List α) {f : α → Fragment}
    {f' : (SqlValue → String) → α → Fragment} {vs : α → List SqlValue}
    (h : ∀ x, Aligned (f x) (fun spell => f' spell x) (vs x)) :
    Aligned (.join separator (xs.map f)) (fun spell => .join separator (xs.map (f' spell)))
      (xs.flatMap vs) := by
  induction xs with
  | nil => exact empty
  | cons x xs ih =>
    cases xs with
    | nil => simpa using h x
    | cons y xs =>
      simp only [List.map_cons, join_cons_cons]
      simpa using ((h x).append (ofText separator)).append ih

end Aligned

end Fragment

open Fragment (Aligned)

theorem boundValues_flatMap {α : Type} (xs : List α) (f : α → List Value) :
    boundValues (xs.flatMap f) = xs.flatMap fun x => boundValues (f x) := by
  simp [boundValues, List.filterMap_flatMap]

theorem boundValues_eq_flatMap (vs : List Value) :
    boundValues vs = vs.flatMap fun v => boundValues [v] := by
  rw [← boundValues_flatMap]
  simp

namespace Row

variable (spell : SqlValue → String)

@[simp] theorem columns_spelled (r : Row) : (r.spelled spell).columns = r.columns :=
  Entries.names_map_snd _ r.entries

@[simp] theorem values_spelled (r : Row) :
    (r.spelled spell).values = r.values.map (Value.spelled spell) := by
  simp [values, spelled, Function.comp_def]

@[simp] theorem header_spelled (rows : List Row) : header (rows.map (spelled spell)) = header rows := by
  cases rows <;> simp [header]

end Row

namespace Dialect

variable (d : Dialect)

theorem aligned_parameter (v : Value) :
    Aligned (d.parameter v) (fun spell => d.parameter (v.spelled spell)) (boundValues [v]) := by
  cases v with
  | bound v => exact Aligned.slot v
  | raw sql => exact Aligned.ofText sql

theorem aligned_valueGroup (row : Row) :
    Aligned (d.valueGroup row) (fun spell => d.valueGroup (row.spelled spell))
      (boundValues row.values) := by
  have h := Aligned.join ", " row.values (d.aligned_parameter)
  rw [← boundValues_eq_flatMap] at h
  simpa only [valueGroup, Row.values_spelled, List.map_map, Function.comp_def] using h.parenthesized

theorem aligned_valueGroups (rows : List Row) :
    Aligned (d.valueGroups rows) (fun spell => d.valueGroups (rows.map (Row.spelled spell)))
      (bindings rows []) := by
  have h := Aligned.join ", " rows (d.aligned_valueGroup)
  rw [← boundValues_flatMap] at h
  simpa only [valueGroups, List.map_map, Function.comp_def, bindings,
    UpdateSpec.assignedValues_nil, List.append_nil] using h

theorem aligned_insertWith (verb table : String) (rows : List Row) :
    Aligned (d.insertWith verb table rows)
      (fun spell => d.insertWith verb table (rows.map (Row.spelled spell))) (bindings rows []) := by
  simp only [insertWith, Row.header_spelled]
  exact (Aligned.ofText _).append (d.aligned_valueGroups rows)

theorem aligned_assignment (entry : UpdateEntry) :
    Aligned (d.assignment entry) (fun spell => d.assignment (entry.spelled spell))
      (boundValues entry.value?.toList) := by
  cases entry with
  | inserted column => exact Aligned.ofText _
  | assign column value => exact (Aligned.ofText _).append (d.aligned_parameter value)

theorem aligned_assignments (update : UpdateSpec) :
    Aligned (d.assignments update)
      (fun spell => d.assignments (update.map (UpdateEntry.spelled spell)))
      (boundValues update.assignedValues) := by
  have h := Aligned.join ", " update (d.aligned_assignment)
  rw [← boundValues_flatMap, ← List.filterMap_eq_flatMap_toList] at h
  simpa only [assignments, List.map_map, Function.comp_def, UpdateSpec.assignedValues] using h

end Dialect

/-- The rows of a `MERGE` stand before its assignments, as their values do in the list. -/
theorem Merge.aligned_statement (table : String) (rows : List Row) (target : ConflictTarget)
    (update : UpdateSpec) :
    Aligned (Merge.statement table rows target update)
      (fun spell => Merge.statement table (rows.map (Row.spelled spell)) target
        (update.map (UpdateEntry.spelled spell))) (bindings rows update) := by
  have hsource : Aligned (Merge.source table rows target)
      (fun spell => Merge.source table (rows.map (Row.spelled spell)) target) (bindings rows []) := by
    simp only [Merge.source, Row.header_spelled]
    simpa using ((Aligned.ofText _).append (Merge.dialect.aligned_valueGroups rows)).append
      (Aligned.ofText _)
  have hmatched : Aligned (Merge.whenMatched update)
      (fun spell => Merge.whenMatched (update.map (UpdateEntry.spelled spell)))
      (boundValues update.assignedValues) := by
    cases update with
    | nil => exact Aligned.empty
    | cons entry update =>
      simpa [Merge.whenMatched] using ((Aligned.ofText _).append
        (Merge.dialect.aligned_assignments (entry :: update))).append (Aligned.ofText " ")
  have hnot : Aligned (Merge.whenNotMatched (Row.header rows))
      (fun _ => Merge.whenNotMatched (Row.header rows)) [] := Aligned.ofText _
  rw [bindings_eq]
  simp only [Merge.statement, Row.header_spelled]
  simpa using (hsource.append hmatched).append hnot

namespace Dialect

variable (d : Dialect) (table : String) (rows : List Row)

theorem aligned_insert :
    Aligned (d.insert table rows) (fun spell => d.insert table (rows.map (Row.spelled spell)))
      (bindings rows []) :=
  d.aligned_insertWith "INSERT" table rows

theorem aligned_upsert (target : ConflictTarget) (update : UpdateSpec) :
    Aligned (d.upsert table rows target update)
      (fun spell => d.upsert table (rows.map (Row.spelled spell)) target
        (update.map (UpdateEntry.spelled spell))) (bindings rows update) := by
  unfold upsert
  rw [bindings_eq]
  cases d.conflictStyle with
  | onConflict =>
    simpa using ((d.aligned_insert table rows).append (Aligned.ofText _)).append
      (d.aligned_assignments update)
  | onDuplicateKey =>
    simpa using ((d.aligned_insert table rows).append (Aligned.ofText _)).append
      (d.aligned_assignments update)
  | merge =>
    rw [← bindings_eq]
    exact Merge.aligned_statement table rows target update

theorem aligned_insertIgnore (target : ConflictTarget) :
    Aligned (d.insertIgnore table rows target)
      (fun spell => d.insertIgnore table (rows.map (Row.spelled spell)) target)
      (bindings rows []) := by
  unfold insertIgnore
  cases d.conflictStyle with
  | onConflict => simpa using (d.aligned_insert table rows).append (Aligned.ofText _)
  | onDuplicateKey =>
    simp only [ignoring_insert]
    exact d.aligned_insertWith "INSERT IGNORE" table rows
  | merge => exact Merge.aligned_statement table rows target []

end Dialect

end BulkWrite
