import BulkWrite.Insert
import BulkWrite.Row.Normal
import Mathlib.Data.List.Forall2
import Mathlib.Data.List.Sort

/-!
Which rows have a normal form, and what it is (`normalize_eq_ok_iff`). The check of a row counts its
columns and looks for each of them in the first row; since no row repeats a column, this makes the
columns of all rows permutations of each other, and sorting makes them equal.
-/
namespace BulkWrite

theorem map_eq_of_forall₂ {α β : Type} {R : α → α → Prop} {f : α → β}
    (h : ∀ a b, R a b → f a = f b) {xs ys : List α} (hxs : List.Forall₂ R xs ys) :
    xs.map f = ys.map f := by
  have hmap : List.Forall₂ (· = ·) (xs.map f) (ys.map f) :=
    List.forall₂_map_right_iff.mpr (List.forall₂_map_left_iff.mpr (hxs.imp h))
  rwa [List.forall₂_eq_eq_eq] at hmap

/-- Look-ups determine distinctly named entries up to their order. -/
theorem Entries.perm_of_lookup_eq {α : Type} {es fs : List (String × α)} (he : (names es).Nodup)
    (hf : (names fs).Nodup) (h : ∀ name, es.lookup name = fs.lookup name) : es.Perm fs := by
  refine (List.perm_ext_iff_of_nodup (he.of_map _) (hf.of_map _)).mpr fun e => ?_
  rw [← lookup_eq_some_iff_mem he e.1 e.2, ← lookup_eq_some_iff_mem hf e.1 e.2, h]

namespace Row

def sortedColumns (r : Row) : List String := r.columns.mergeSort fun a b => decide (a ≤ b)

/-- There are rows, there are columns, and every row has these columns in some order. -/
def Compatible (rows : List Row) : Prop :=
  rows ≠ [] ∧ ∃ columns : List String, columns ≠ [] ∧ ∀ r ∈ rows, r.columns.Perm columns

theorem sameColumns_iff (r s : Row) : r.sameColumns s = true ↔ r.columns.Perm s.columns := by
  simp only [sameColumns, Bool.and_eq_true, beq_iff_eq, List.all_eq_true, contains_iff]
  constructor
  · rintro ⟨hsize, hsub⟩
    have hlen : s.columns.length ≤ r.columns.length := by simp [hsize]
    exact (List.subperm_of_subset r.nodup_columns hsub).perm_of_length_le hlen
  · intro h
    exact ⟨by simpa using h.length_eq, fun c hc => h.mem_iff.mp hc⟩

theorem eq_of_perm_of_pairwise {xs ys : List String} (h : xs.Perm ys) (hx : xs.Pairwise (· ≤ ·))
    (hy : ys.Pairwise (· ≤ ·)) : xs = ys :=
  List.Perm.eq_of_pairwise (fun _ _ _ _ => String.le_antisymm) hx hy h

theorem sortedColumns_perm (r : Row) : r.sortedColumns.Perm r.columns :=
  List.mergeSort_perm _ _

theorem sortedColumns_pairwise (r : Row) : r.sortedColumns.Pairwise (· ≤ ·) := by
  have htrans : ∀ a b c : String, decide (a ≤ b) = true → decide (b ≤ c) = true →
      decide (a ≤ c) = true := by
    intro a b c hab hbc
    exact decide_eq_true (String.le_trans (of_decide_eq_true hab) (of_decide_eq_true hbc))
  have htotal : ∀ a b : String, (decide (a ≤ b) || decide (b ≤ a)) = true := by
    intro a b
    simpa using String.le_total a b
  exact (List.pairwise_mergeSort htrans htotal r.columns).imp fun hab => of_decide_eq_true hab

theorem columns_sorted (r : Row) : r.sorted.columns = r.sortedColumns :=
  eq_of_perm_of_pairwise (r.columns_sorted_perm.trans r.sortedColumns_perm.symm)
    r.columns_sorted_pairwise r.sortedColumns_pairwise

theorem sortedColumns_eq_of_perm {r s : Row} (h : r.columns.Perm s.columns) :
    r.sortedColumns = s.sortedColumns :=
  eq_of_perm_of_pairwise
    (r.sortedColumns_perm.trans (h.trans s.sortedColumns_perm.symm))
    r.sortedColumns_pairwise s.sortedColumns_pairwise

theorem sorted_eq_of_perm {r s : Row} (h : r.entries.Perm s.entries) : r.sorted = s.sorted := by
  have hperm : r.sorted.entries.Perm s.sorted.entries :=
    (entries_sorted_perm r).trans (h.trans (entries_sorted_perm s).symm)
  apply Row.ext
  refine hperm.eq_of_pairwise ?_ (sortEntries_pairwise r.entries) (sortEntries_pairwise s.entries)
  -- Entries that compare equal have the same column, which only one entry of a row has.
  intro e f he hf hef hfe
  have hcolumn : e.1 = f.1 :=
    String.le_antisymm (of_decide_eq_true hef) (of_decide_eq_true hfe)
  exact List.inj_on_of_nodup_map r.sorted.nodup he (hperm.mem_iff.mpr hf) hcolumn

/-- The order of the columns is all that sorting removes. -/
theorem sorted_eq_sorted_iff (r s : Row) :
    r.sorted = s.sorted ↔ ∀ column, r.get? column = s.get? column := by
  constructor
  · intro h column
    rw [← r.get?_sorted, h, s.get?_sorted]
  · intro h
    exact sorted_eq_of_perm (Entries.perm_of_lookup_eq r.nodup s.nodup h)

theorem firstMismatch?_eq_none_iff (first : Row) (rows : List Row) :
    firstMismatch? first rows = none ↔ ∀ r ∈ rows, r.columns.Perm first.columns := by
  simp only [firstMismatch?, List.find?_eq_none, Bool.not_eq_true, Bool.not_eq_false',
    sameColumns_iff]
  constructor
  · intro h r hr
    obtain ⟨i, hi, rfl⟩ := List.getElem_of_mem hr
    exact h (rows[i], i) (List.mk_mem_zipIdx_iff_getElem?.mpr (List.getElem?_eq_getElem hi))
  · rintro h ⟨r, i⟩ hr
    exact h r (List.fst_mem_of_mem_zipIdx hr)

@[simp] theorem isEmpty_eq_true_iff (r : Row) : r.isEmpty = true ↔ r.columns = [] := by
  simp [isEmpty, columns, Entries.names]

theorem columns_sorted_perm_iff (r s : Row) :
    r.sorted.columns.Perm s.sorted.columns ↔ r.columns.Perm s.columns := by
  rw [(columns_sorted_perm r).congr_left, (columns_sorted_perm s).congr_right]

theorem compatible_cons_iff (first : Row) (rest : List Row) :
    Compatible (first :: rest) ↔
      first.columns ≠ [] ∧ ∀ r ∈ first :: rest, r.columns.Perm first.columns := by
  constructor
  · rintro ⟨-, columns, hne, hperm⟩
    have hfirst := hperm first List.mem_cons_self
    exact ⟨fun h => hne (List.nil_perm.mp (h ▸ hfirst)),
      fun r hr => (hperm r hr).trans hfirst.symm⟩
  · rintro ⟨hne, hperm⟩
    exact ⟨by simp, first.columns, hne, hperm⟩

theorem sameColumns_sorted (r s : Row) : r.sorted.sameColumns s.sorted = r.sameColumns s := by
  rw [Bool.eq_iff_iff, sameColumns_iff, sameColumns_iff, columns_sorted_perm_iff]

/-- A change to the rows that keeps which columns are the same finds the changed row at its place. -/
theorem firstMismatch?_map {f : Row → Row}
    (h : ∀ r s, (f r).sameColumns (f s) = r.sameColumns s) (first : Row) (rows : List Row) :
    firstMismatch? (f first) (rows.map f) = (firstMismatch? first rows).map (Prod.map f id) := by
  have hcheck : (fun row : Row × Nat => !row.1.sameColumns (f first)) ∘ Prod.map f id =
      fun row => !row.1.sameColumns first := by
    funext row
    simp [h]
  rw [firstMismatch?, List.zipIdx_map, List.find?_map, hcheck, firstMismatch?]

/-- What rows are checked for, in terms of the rows before sorting. -/
theorem normalize_cons (first : Row) (rest : List Row) :
    normalize (first :: rest) =
      if first.columns = [] then .error (.invalid .noColumns)
      else match firstMismatch? first (first :: rest) with
        | none => .ok ((first :: rest).map sorted)
        | some (r, index) =>
          .error (.invalid (.columnMismatch index r.sortedColumns first.sortedColumns)) := by
  have hempty : first.sortedColumns = [] ↔ first.columns = [] := by
    rw [← List.perm_nil, first.sortedColumns_perm.congr_left, List.perm_nil]
  have hfound := firstMismatch?_map sameColumns_sorted first (first :: rest)
  rw [List.map_cons] at hfound
  simp only [normalize, List.map_cons, isEmpty_eq_true_iff, columns_sorted, hempty, hfound]
  split
  · rfl
  · cases firstMismatch? first (first :: rest) with
    | none => rfl
    | some row => simp [columns_sorted]

/-- Rows are accepted exactly if they go together, and then each row is sorted on its own. -/
theorem normalize_eq_ok_iff (rows rows' : List Row) :
    normalize rows = .ok rows' ↔ Compatible rows ∧ rows' = rows.map sorted := by
  cases rows with
  | nil => simp [normalize, Compatible]
  | cons first rest =>
    rw [compatible_cons_iff, normalize_cons, ← firstMismatch?_eq_none_iff]
    by_cases hne : first.columns = []
    · simp [hne]
    · rw [if_neg hne]
      cases firstMismatch? first (first :: rest) with
      | none => simp [hne, eq_comm]
      | some row => simp

theorem normalize_of_compatible {rows : List Row} (h : Compatible rows) :
    normalize rows = .ok (rows.map sorted) :=
  (normalize_eq_ok_iff rows _).mpr ⟨h, rfl⟩

theorem cases_of_normalize_eq_error {rows : List Row} {e : CompileError}
    (h : normalize rows = .error e) :
    e = .invalid .noRows ∨ e = .invalid .noColumns ∨
      ∃ index found expected, e = .invalid (.columnMismatch index found expected) := by
  unfold normalize at h
  split at h
  · exact .inl (Except.error.inj h).symm
  · split at h
    · exact .inr (.inl (Except.error.inj h).symm)
    · split at h
      · cases h
      · exact .inr (.inr ⟨_, _, _, (Except.error.inj h).symm⟩)

theorem exists_violation_of_normalize {rows : List Row} {e : CompileError}
    (h : normalize rows = .error e) : ∃ v, e = .invalid v := by
  obtain rfl | rfl | ⟨index, found, expected, rfl⟩ := cases_of_normalize_eq_error h
  · exact ⟨_, rfl⟩
  · exact ⟨_, rfl⟩
  · exact ⟨_, rfl⟩

theorem normalize_ne_noConflictTarget (rows : List Row) :
    normalize rows ≠ .error (.invalid .noConflictTarget) := by
  intro h
  obtain he | he | ⟨index, found, expected, he⟩ := cases_of_normalize_eq_error h
  · cases he
  · cases he
  · cases he

namespace Compatible

variable {rows : List Row} (h : Compatible rows)

include h

theorem perm {r s : Row} (hr : r ∈ rows) (hs : s ∈ rows) : r.columns.Perm s.columns := by
  obtain ⟨-, columns, -, hperm⟩ := h
  exact (hperm r hr).trans (hperm s hs).symm

theorem header_eq {r : Row} (hr : r ∈ rows) : header (rows.map sorted) = r.sortedColumns := by
  cases rows with
  | nil => exact absurd rfl h.1
  | cons first rest =>
    change first.sorted.columns = r.sortedColumns
    rw [columns_sorted]
    exact sortedColumns_eq_of_perm (h.perm List.mem_cons_self hr)

theorem columns_sorted_eq {r : Row} (hr : r ∈ rows) :
    r.sorted.columns = header (rows.map sorted) := by
  rw [columns_sorted, h.header_eq hr]

theorem header_ne_nil : header (rows.map sorted) ≠ [] := by
  obtain ⟨hrows, columns, hne, hperm⟩ := id h
  obtain ⟨r, hr⟩ := List.exists_mem_of_ne_nil rows hrows
  rw [h.header_eq hr]
  intro hnil
  have hp := r.sortedColumns_perm.trans (hperm r hr)
  rw [hnil] at hp
  exact hne (List.nil_perm.mp hp)

end Compatible

end Row

end BulkWrite
