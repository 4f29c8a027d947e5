import BulkWrite.Entries
import BulkWrite.Value

/-!
Rows: finite maps from columns to values that remember an order of their columns. Writing a column
keeps its place, a new column comes last, and `sorted` brings the columns into code-point order.
-/
namespace BulkWrite

structure Row where
  entries : List (String × Value)
  nodup : (Entries.names entries).Nodup
  deriving DecidableEq

namespace Row

/-- Rows compare entry by entry, in order. -/
instance : BEq Row := ⟨fun r s => r.entries == s.entries⟩

def empty : Row := ⟨[], by simp⟩

instance : Inhabited Row := ⟨empty⟩

def columns (r : Row) : List String := Entries.names r.entries

def values (r : Row) : List Value := r.entries.map Prod.snd

def size (r : Row) : Nat := r.entries.length

def isEmpty (r : Row) : Bool := r.entries.isEmpty

def get? (r : Row) (column : String) : Option Value := r.entries.lookup column

def contains (r : Row) (column : String) : Bool := (r.get? column).isSome

def set (r : Row) (column : String) (v : Value) : Row :=
  ⟨Entries.put column v r.entries, Entries.nodup_names_put column v r.nodup⟩

/-- The row that holds the last value of each column, in the order of first appearance. -/
def ofList (es : List (String × Value)) : Row :=
  ⟨Entries.ofList es, Entries.nodup_names_ofList es⟩

/-- Entries are ordered by their columns, and columns by code points. -/
def entryLe (a b : String × Value) : Bool := decide (a.1 ≤ b.1)

theorem entryLe_trans (a b c : String × Value) (hab : entryLe a b = true)
    (hbc : entryLe b c = true) : entryLe a c = true :=
  decide_eq_true (String.le_trans (of_decide_eq_true hab) (of_decide_eq_true hbc))

theorem entryLe_total (a b : String × Value) : (entryLe a b || entryLe b a) = true := by
  rcases String.le_total a.1 b.1 with h | h
  · simp [entryLe, h]
  · simp [entryLe, h]

def sortEntries (es : List (String × Value)) : List (String × Value) := es.mergeSort entryLe

theorem sortEntries_perm (es : List (String × Value)) : (sortEntries es).Perm es :=
  List.mergeSort_perm es entryLe

theorem sortEntries_pairwise (es : List (String × Value)) :
    (sortEntries es).Pairwise fun a b => entryLe a b = true :=
  List.pairwise_mergeSort entryLe_trans entryLe_total es

def sorted (r : Row) : Row :=
  ⟨sortEntries r.entries,
    ((sortEntries_perm r.entries).map Prod.fst).nodup_iff.2 r.nodup⟩

@[ext] theorem ext {r s : Row} (h : r.entries = s.entries) : r = s := by
  cases r; cases s; cases h; rfl

@[simp] theorem entries_empty : empty.entries = [] := rfl

@[simp] theorem entries_set (r : Row) (column : String) (v : Value) :
    (r.set column v).entries = Entries.put column v r.entries := rfl

@[simp] theorem entries_ofList (es : List (String × Value)) :
    (ofList es).entries = Entries.ofList es := rfl

theorem entries_sorted_perm (r : Row) : r.sorted.entries.Perm r.entries :=
  sortEntries_perm r.entries

theorem columns_sorted_perm (r : Row) : r.sorted.columns.Perm r.columns :=
  (entries_sorted_perm r).map Prod.fst

theorem columns_sorted_pairwise (r : Row) : r.sorted.columns.Pairwise (· ≤ ·) :=
  List.pairwise_map.2 ((sortEntries_pairwise r.entries).imp fun h => of_decide_eq_true h)

theorem nodup_columns (r : Row) : r.columns.Nodup := r.nodup

@[simp] theorem length_columns (r : Row) : r.columns.length = r.size := by
  simp [columns, Entries.names, size]

@[simp] theorem length_values (r : Row) : r.values.length = r.size := by
  simp [values, size]

theorem columns_set (r : Row) (column : String) (v : Value) :
    (r.set column v).columns =
      if column ∈ r.columns then r.columns else r.columns ++ [column] :=
  Entries.names_put column v r.entries

theorem contains_iff (r : Row) (column : String) :
    r.contains column = true ↔ column ∈ r.columns :=
  Entries.isSome_lookup_iff column r.entries

@[simp] theorem get?_empty (column : String) : empty.get? column = none := rfl

theorem get?_set (r : Row) (column other : String) (v : Value) :
    (r.set column v).get? other = if other = column then some v else r.get? other :=
  Entries.lookup_put column other v r.entries

theorem get?_sorted (r : Row) (column : String) : r.sorted.get? column = r.get? column :=
  Entries.lookup_eq_of_perm (entries_sorted_perm r) r.sorted.nodup column

theorem eq_of_columns_of_values {r s : Row} (hcolumns : r.columns = s.columns)
    (hvalues : r.values = s.values) : r = s := by
  have hzip : ∀ row : Row, row.entries = row.columns.zip row.values := by
    intro row
    rw [columns, Entries.names, values, ← List.unzip_fst, ← List.unzip_snd, List.zip_unzip]
  apply Row.ext
  rw [hzip r, hzip s, hcolumns, hvalues]

theorem eq_of_columns_of_get? {r s : Row} (hcolumns : r.columns = s.columns)
    (hget : ∀ column, r.get? column = s.get? column) : r = s := by
  have hlookup : ∀ row : Row, row.columns.map row.get? = row.values.map some := fun row => by
    rw [values, List.map_map]
    exact Entries.map_lookup_names row.nodup
  have hvalues : r.values.map some = s.values.map some := by
    rw [← hlookup, ← hlookup, hcolumns, show r.get? = s.get? from funext hget]
  exact eq_of_columns_of_values hcolumns
    ((List.map_inj_right fun _ _ => Option.some.inj).1 hvalues)

end Row

end BulkWrite
