import BulkWrite.Proofs.KeyOrder

/-!
The normal form of rows is canonical: accepted rows have one, it is its own normal form, and two
lists of rows have the same one exactly if they hold the same cells, row by row. Rows without one
have one fault. Main statement: `normalize_canonical`.
-/
namespace BulkWrite.Row

def SameColumnSet (r s : Row) : Prop := ∀ column, column ∈ r.columns ↔ column ∈ s.columns

theorem sameColumnSet_iff_perm (r s : Row) : r.SameColumnSet s ↔ r.columns.Perm s.columns :=
  (List.perm_ext_iff_of_nodup r.nodup_columns s.nodup_columns).symm

instance (r s : Row) : Decidable (r.SameColumnSet s) :=
  decidable_of_iff _ (sameColumnSet_iff_perm r s).symm

/-- The columns of a row, each one before those that are greater. -/
def ListsColumns (r : Row) (columns : List String) : Prop :=
  columns.Perm r.columns ∧ columns.Pairwise (· < ·)

theorem sortedColumns_strict (r : Row) : r.sortedColumns.Pairwise (· < ·) := by
  have hnodup : r.sortedColumns.Nodup := r.sortedColumns_perm.nodup_iff.2 r.nodup_columns
  exact r.sortedColumns_pairwise.imp₂ (fun _ _ => lt_of_le_of_ne) hnodup

theorem listsColumns_iff (r : Row) (columns : List String) :
    r.ListsColumns columns ↔ columns = r.sortedColumns := by
  constructor
  · rintro ⟨hperm, hstrict⟩
    exact eq_of_perm_of_pairwise (hperm.trans r.sortedColumns_perm.symm) (hstrict.imp le_of_lt)
      r.sortedColumns_pairwise
  · rintro rfl
    exact ⟨r.sortedColumns_perm, r.sortedColumns_strict⟩

/-- There is a first row, it has a column, and the columns of every row are those of the first. -/
def Uniform (rows : List Row) : Prop :=
  ∃ first rest, rows = first :: rest ∧ first.columns ≠ [] ∧ ∀ r ∈ rows, r.SameColumnSet first

theorem compatible_iff_uniform (rows : List Row) : Compatible rows ↔ Uniform rows := by
  cases rows with
  | nil => simp [Compatible, Uniform]
  | cons first rest => simp [compatible_cons_iff, Uniform, sameColumnSet_iff_perm]

/-- Row by row the same cells in the order of their columns, and the same columns in all rows. -/
structure IsNormalForm (rows rows' : List Row) : Prop where
  length_eq : rows'.length = rows.length
  cells : List.Forall₂ (fun r r' => r'.entries.Perm r.entries ∧ r'.columns.Pairwise (· < ·)) rows rows'
  columns_eq : ∀ r ∈ rows', ∀ s ∈ rows', r.columns = s.columns

theorem isNormalForm_map_sorted {rows : List Row} (h : Compatible rows) :
    IsNormalForm rows (rows.map sorted) where
  length_eq := List.length_map _
  cells := by
    rw [List.forall₂_map_right_iff, List.forall₂_same]
    exact fun r _ => ⟨r.entries_sorted_perm, r.columns_sorted ▸ r.sortedColumns_strict⟩
  columns_eq := by
    simp only [List.forall_mem_map]
    exact fun r hr s hs => (h.columns_sorted_eq hr).trans (h.columns_sorted_eq hs).symm

@[simp] theorem sorted_sorted (r : Row) : r.sorted.sorted = r.sorted :=
  sorted_eq_of_perm r.entries_sorted_perm

theorem Compatible.map_sorted {rows : List Row} (h : Compatible rows) :
    Compatible (rows.map sorted) := by
  obtain ⟨hrows, columns, hne, hperm⟩ := h
  refine ⟨by simpa using hrows, columns, hne, List.forall_mem_map.2 fun r hr => ?_⟩
  exact r.columns_sorted_perm.trans (hperm r hr)

theorem normalize_map_sorted {rows : List Row} (h : Compatible rows) :
    normalize (rows.map sorted) = .ok (rows.map sorted) := by
  rw [normalize_of_compatible h.map_sorted]
  simp [Function.comp_def]

theorem map_sorted_eq_iff (rows others : List Row) :
    rows.map sorted = others.map sorted ↔ List.Forall₂ SameCells rows others := by
  refine ⟨fun h => ?_, map_sorted_eq_of_sameCells⟩
  rw [← List.forall₂_eq_eq_eq, List.forall₂_map_left_iff, List.forall₂_map_right_iff] at h
  exact h.imp fun r s => (sorted_eq_sorted_iff r s).1

theorem firstMismatch?_eq_some_iff (first : Row) (rows : List Row) (r : Row) (index : Nat) :
    firstMismatch? first rows = some (r, index) ↔
      rows[index]? = some r ∧ ¬ r.SameColumnSet first ∧
        ∀ j s, j < index → rows[j]? = some s → s.SameColumnSet first := by
  simp only [firstMismatch?, List.find?_eq_some_iff_getElem, List.length_zipIdx,
    List.getElem_zipIdx, Nat.zero_add, Prod.mk.injEq, Bool.not_not, Bool.not_eq_true',
    ← Bool.not_eq_true, sameColumns_iff, List.getElem?_eq_some_iff, sameColumnSet_iff_perm]
  constructor
  · rintro ⟨hr, i, hi, ⟨rfl, rfl⟩, hbefore⟩
    refine ⟨⟨hi, rfl⟩, hr, ?_⟩
    rintro j s hj ⟨-, rfl⟩
    exact hbefore j hj
  · rintro ⟨⟨hi, rfl⟩, hr, hbefore⟩
    exact ⟨hr, index, hi, ⟨rfl, rfl⟩, fun j hj => hbefore j _ hj ⟨hj.trans hi, rfl⟩⟩

/-- What is wrong with rows, and how it is displayed. -/
inductive Faulty : List Row → Violation → String → Prop
  | noRows : Faulty [] .noRows "no rows to write"
  | noColumns {first : Row} {rest : List Row} (hfirst : first.columns = []) :
    Faulty (first :: rest) .noColumns "row 0 has no columns"
  | columnMismatch {first r : Row} {rest : List Row} {index : Nat} {found expected : List String}
    (hfirst : first.columns ≠ []) (hr : (first :: rest)[index]? = some r)
    (hdiffers : ¬ r.SameColumnSet first)
    (hleast : ∀ j s, j < index → (first :: rest)[j]? = some s → s.SameColumnSet first)
    (hfound : r.ListsColumns found) (hexpected : first.ListsColumns expected) :
    Faulty (first :: rest) (.columnMismatch index found expected)
      ("row " ++ toString index ++ " has columns (" ++ ", ".intercalate found ++ ") but row 0 has (" ++
        ", ".intercalate expected ++ ")")

theorem message_of_faulty {rows : List Row} {v : Violation} {text : String} (h : Faulty rows v text) :
    v.message = text := by
  cases h <;> rfl

theorem normalize_of_faulty {rows : List Row} {v : Violation} {text : String}
    (h : Faulty rows v text) : normalize rows = .error (.invalid v) := by
  cases h with
  | noRows => rfl
  | noColumns hfirst => rw [normalize_cons, if_pos hfirst]
  | @columnMismatch first r rest index found expected hfirst hr hdiffers hleast hfound hexpected =>
    have hmismatch := (firstMismatch?_eq_some_iff first (first :: rest) r index).2
      ⟨hr, hdiffers, hleast⟩
    rw [normalize_cons, if_neg hfirst, hmismatch, (listsColumns_iff r found).1 hfound,
      (listsColumns_iff first expected).1 hexpected]

theorem faulty_of_normalize {rows : List Row} {e : CompileError} (h : normalize rows = .error e) :
    ∃ v text, Faulty rows v text ∧ e = .invalid v := by
  cases rows with
  | nil => exact ⟨_, _, .noRows, (Except.error.inj h).symm⟩
  | cons first rest =>
    rw [normalize_cons] at h
    split_ifs at h with hfirst
    · exact ⟨_, _, .noColumns hfirst, (Except.error.inj h).symm⟩
    · split at h
      · cases h
      · next r index hmismatch =>
        obtain ⟨hr, hdiffers, hleast⟩ := (firstMismatch?_eq_some_iff _ _ r index).1 hmismatch
        have hfound := (listsColumns_iff r _).2 rfl
        have hexpected := (listsColumns_iff first _).2 rfl
        exact ⟨_, _, .columnMismatch hfirst hr hdiffers hleast hfound hexpected,
          (Except.error.inj h).symm⟩

/-- Rows are accepted exactly if there are any and all of them have the columns of the first one,
which has some. Their normal form holds their cells, is left alone by another normalization, and is
shared by exactly the accepted rows that hold the same cells. Otherwise the error is the one fault of
the rows. -/
theorem normalize_canonical (rows : List Row) :
    ((∃ rows', normalize rows = .ok rows') ↔ Uniform rows) ∧
      (∀ rows', normalize rows = .ok rows' →
        IsNormalForm rows rows' ∧ normalize rows' = .ok rows') ∧
      (∀ others rows' others', normalize rows = .ok rows' → normalize others = .ok others' →
        (rows' = others' ↔ List.Forall₂ SameCells rows others)) ∧
      ∀ e, normalize rows = .error e ↔ ∃ v text, Faulty rows v text ∧ e = .invalid v ∧
        e.message = "validation error: " ++ text := by
  refine ⟨?_, fun rows' h => ?_, fun others rows' others' h ho => ?_, fun e => ⟨fun h => ?_, ?_⟩⟩
  · simp only [normalize_eq_ok_iff, exists_and_left, exists_eq, and_true, compatible_iff_uniform]
  · obtain ⟨hrows, rfl⟩ := (normalize_eq_ok_iff rows rows').1 h
    exact ⟨isNormalForm_map_sorted hrows, normalize_map_sorted hrows⟩
  · obtain ⟨-, rfl⟩ := (normalize_eq_ok_iff rows rows').1 h
    obtain ⟨-, rfl⟩ := (normalize_eq_ok_iff others others').1 ho
    exact map_sorted_eq_iff rows others
  · obtain ⟨v, text, hv, rfl⟩ := faulty_of_normalize h
    exact ⟨v, text, hv, rfl, congrArg ("validation error: " ++ ·) (message_of_faulty hv)⟩
  · rintro ⟨v, text, hv, rfl, -⟩
    exact normalize_of_faulty hv

/-- The second row has the columns of the first one in another order. The third one has other columns,
which its error lists in order, and the fourth one is not looked at. -/
theorem normalize_canonical_third_row :
    normalize [.ofList [("b", .raw "now()"), ("a", .bound .null)],
        .ofList [("a", .bound (.int 1)), ("b", .bound .null)],
        .ofList [("c", .bound .null), ("b", .bound .null)], .empty] =
      .error (.invalid (.columnMismatch 2 ["b", "c"] ["a", "b"])) := by
  obtain ⟨-, -, -, herror⟩ := normalize_canonical
    [.ofList [("b", .raw "now()"), ("a", .bound .null)],
      .ofList [("a", .bound (.int 1)), ("b", .bound .null)],
      .ofList [("c", .bound .null), ("b", .bound .null)], .empty]
  refine (herror _).2 ⟨_, _, .columnMismatch (by decide) rfl (by decide) ?_
    ⟨by decide, by decide⟩ ⟨by decide, by decide⟩, rfl, rfl⟩
  intro j s hj hs
  interval_cases j
  · obtain rfl := Option.some.inj hs
    decide
  · obtain rfl := Option.some.inj hs
    decide

end BulkWrite.Row
