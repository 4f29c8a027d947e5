import BulkWrite.Proofs.CanonicalForm
import Mathlib.Data.Finset.Card

/-!
What a row holds after any edits: under each column what was last written to it, with the columns in
the order of the last sort and of their first writes since. Main statement: `edited_is_ordered_map`.
-/
namespace BulkWrite.Row

inductive Edit where
  | set (column : String) (v : Value)
  | sort
  deriving DecidableEq, Inhabited

namespace Edit

def apply (r : Row) : Edit → Row
  | set column v => r.set column v
  | sort => r.sorted

def column? : Edit → Option String
  | set column _ => some column
  | sort => none

end Edit

/-- What `edits` make of the row without columns. -/
def edited (edits : List Edit) : Row := edits.foldl Edit.apply empty

def written (edits : List Edit) : List String := edits.filterMap Edit.column?

@[simp] theorem edited_nil : edited [] = empty := rfl

@[simp] theorem edited_append_set (edits : List Edit) (column : String) (v : Value) :
    edited (edits ++ [.set column v]) = (edited edits).set column v := by
  simp [edited, Edit.apply]

@[simp] theorem edited_append_sort (edits : List Edit) :
    edited (edits ++ [.sort]) = (edited edits).sorted := by
  simp [edited, Edit.apply]

@[simp] theorem written_nil : written [] = [] := rfl

@[simp] theorem written_append_set (edits : List Edit) (column : String) (v : Value) :
    written (edits ++ [.set column v]) = written edits ++ [column] := by
  simp [written, Edit.column?]

@[simp] theorem written_append_sort (edits : List Edit) :
    written (edits ++ [.sort]) = written edits := by
  simp [written, Edit.column?]

/-- Nothing is written to `column` after `v`. -/
def LastWritten (edits : List Edit) (column : String) (v : Value) : Prop :=
  ∃ before after, edits = before ++ .set column v :: after ∧ ∀ w, .set column w ∉ after

/-- `new` lists the columns that are written to and not in `known`, by their first writes. -/
structure FirstWritten (edits : List Edit) (known new : List String) : Prop where
  mem_iff : ∀ column, column ∈ new ↔ column ∈ written edits ∧ column ∉ known
  in_order : new.Pairwise fun a b => (written edits).idxOf a < (written edits).idxOf b

/-- The order of the columns after `edits`: those of the last sort, and then those that are new
since. -/
inductive LaidOut : List Edit → List String → Prop
  | unsorted {edits : List Edit} {new : List String} (hsort : .sort ∉ edits)
    (hnew : FirstWritten edits [] new) : LaidOut edits new
  | sorted {before after : List Edit} {present new : List String} (hsort : .sort ∉ after)
    (hpresent : ∀ column, column ∈ present ↔ column ∈ written before)
    (hstrict : present.Pairwise (· < ·)) (hnew : FirstWritten after present new) :
    LaidOut (before ++ .sort :: after) (present ++ new)

/-- `r` is what `edits` make. -/
structure Records (edits : List Edit) (r : Row) : Prop where
  nodup : r.columns.Nodup
  get?_iff : ∀ column v, r.get? column = some v ↔ LastWritten edits column v
  contains_iff : ∀ column, r.contains column = true ↔ ∃ v, .set column v ∈ edits
  size_eq : r.size = (written edits).toFinset.card
  laidOut : LaidOut edits r.columns

theorem mem_written_iff (edits : List Edit) (column : String) :
    column ∈ written edits ↔ ∃ v, .set column v ∈ edits := by
  rw [written, List.mem_filterMap]
  constructor
  · rintro ⟨edit, hedit, hcolumn⟩
    cases edit with
    | set other v =>
      obtain rfl := Option.some.inj hcolumn
      exact ⟨v, hedit⟩
    | sort => cases hcolumn
  · rintro ⟨v, hv⟩
    exact ⟨_, hv, rfl⟩

theorem mem_columns_edited_iff (edits : List Edit) (column : String) :
    column ∈ (edited edits).columns ↔ column ∈ written edits := by
  induction edits using List.reverseRecOn with
  | nil => rfl
  | append_singleton edits edit ih =>
    cases edit with
    | set other v =>
      rw [edited_append_set, written_append_set, columns_set, List.mem_append, List.mem_singleton,
        ← ih]
      split_ifs with hother
      · constructor
        · exact Or.inl
        · rintro (hcolumn | rfl)
          · exact hcolumn
          · exact hother
      · rw [List.mem_append, List.mem_singleton]
    | sort =>
      rw [edited_append_sort, written_append_sort, ← ih]
      exact (edited edits).columns_sorted_perm.mem_iff

theorem lastWritten_append_iff (edits : List Edit) (edit : Edit) (column : String) (v : Value) :
    LastWritten (edits ++ [edit]) column v ↔
      edit = .set column v ∨ (∀ w, edit ≠ .set column w) ∧ LastWritten edits column v := by
  constructor
  · rintro ⟨before, after, hedits, hafter⟩
    induction after using List.reverseRecOn with
    | nil => exact .inl (List.append_inj_right' hedits rfl |> List.singleton_inj.1)
    | append_singleton after last _ =>
      rw [← List.cons_append, ← List.append_assoc] at hedits
      obtain ⟨rfl, hlast⟩ := List.append_inj' hedits rfl
      obtain rfl := List.singleton_inj.1 hlast
      refine .inr ⟨fun w hw => hafter w (by simp [hw]), before, after, rfl, fun w hw => ?_⟩
      exact hafter w (List.mem_append_left _ hw)
  · rintro (rfl | ⟨hedit, before, after, rfl, hafter⟩)
    · exact ⟨edits, [], rfl, by simp⟩
    · refine ⟨before, after ++ [edit], by simp, fun w hw => ?_⟩
      rcases List.mem_append.1 hw with hw | hw
      · exact hafter w hw
      · exact hedit w (List.mem_singleton.1 hw).symm

theorem get?_edited_iff (edits : List Edit) (column : String) (v : Value) :
    (edited edits).get? column = some v ↔ LastWritten edits column v := by
  induction edits using List.reverseRecOn with
  | nil => simp [LastWritten]
  | append_singleton edits edit ih =>
    rw [lastWritten_append_iff]
    cases edit with
    | set other w =>
      rw [edited_append_set, get?_set]
      by_cases hcolumn : column = other
      · subst hcolumn
        simp
      · have hother : other ≠ column := Ne.symm hcolumn
        simp [hcolumn, hother, ih]
    | sort => simp [get?_sorted, ih]

namespace FirstWritten

variable {edits : List Edit} {known new : List String}

theorem nil (known : List String) : FirstWritten [] known [] where
  mem_iff := by simp
  in_order := .nil

theorem set (h : FirstWritten edits known new) (column : String) (v : Value) :
    FirstWritten (edits ++ [.set column v]) known
      (if column ∈ known ++ new then new else new ++ [column]) := by
  have hkept : new.Pairwise fun a b =>
      (written edits ++ [column]).idxOf a < (written edits ++ [column]).idxOf b := by
    refine h.in_order.imp_of_mem fun ha hb hab => ?_
    rw [List.idxOf_append_of_mem ((h.mem_iff _).1 ha).1,
      List.idxOf_append_of_mem ((h.mem_iff _).1 hb).1]
    exact hab
  rw [← written_append_set edits column v] at hkept
  split_ifs with hcolumn
  · refine ⟨fun other => ?_, hkept⟩
    rw [h.mem_iff, written_append_set, List.mem_append, List.mem_singleton]
    rw [List.mem_append, h.mem_iff] at hcolumn
    grind
  · rw [List.mem_append, not_or] at hcolumn
    have hfresh : column ∉ written edits := fun hwritten =>
      hcolumn.2 ((h.mem_iff column).2 ⟨hwritten, hcolumn.1⟩)
    constructor
    · intro other
      rw [List.mem_append, List.mem_singleton, h.mem_iff, written_append_set, List.mem_append,
        List.mem_singleton]
      grind
    · refine List.pairwise_append.2 ⟨hkept, List.pairwise_singleton _ _, fun a ha b hb => ?_⟩
      obtain rfl := List.mem_singleton.1 hb
      have ha' := ((h.mem_iff a).1 ha).1
      rw [written_append_set, List.idxOf_append_of_mem ha', List.idxOf_append_of_notMem hfresh]
      exact Nat.lt_add_right _ (List.idxOf_lt_length_of_mem ha')

theorem unique {new' : List String} (h : FirstWritten edits known new)
    (h' : FirstWritten edits known new') : new = new' := by
  have hnodup : ∀ {cs : List String}, FirstWritten edits known cs → cs.Nodup := fun hcs =>
    hcs.in_order.imp fun hlt heq => by simp [heq] at hlt
  have hperm : new.Perm new' := (List.perm_ext_iff_of_nodup (hnodup h) (hnodup h')).2 fun column => by
    rw [h.mem_iff, h'.mem_iff]
  exact hperm.eq_of_pairwise (fun a b _ _ hab hba => absurd hab hba.not_gt) h.in_order h'.in_order

end FirstWritten

theorem eq_of_last_sort_eq {before before' after after' : List Edit} (h : .sort ∉ after)
    (h' : .sort ∉ after') (heq : before ++ .sort :: after = before' ++ .sort :: after') :
    before = before' ∧ after = after' := by
  have hlast : ∀ {xs ys zs : List Edit}, .sort ∉ xs → .sort :: xs = zs ++ .sort :: ys →
      zs = [] ∧ xs = ys := by
    intro xs ys zs hxs hsplit
    cases zs with
    | nil => exact ⟨rfl, (List.cons.inj hsplit).2⟩
    | cons z zs =>
      rw [List.cons_append, List.cons.injEq] at hsplit
      exact absurd (hsplit.2 ▸ List.mem_append_right zs List.mem_cons_self) hxs
  rcases List.append_eq_append_iff.1 heq with ⟨between, hbefore, hafter⟩ | ⟨between, hbefore, hafter⟩
  · obtain ⟨rfl, hsame⟩ := hlast h hafter
    exact ⟨by simp [hbefore], hsame⟩
  · obtain ⟨rfl, hsame⟩ := hlast h' hafter
    exact ⟨by simp [hbefore], hsame.symm⟩

namespace LaidOut

variable {edits : List Edit} {columns : List String}

theorem set (h : LaidOut edits columns) (column : String) (v : Value) :
    LaidOut (edits ++ [.set column v])
      (if column ∈ columns then columns else columns ++ [column]) := by
  cases h with
  | unsorted hsort hnew => exact .unsorted (by simpa using hsort) (hnew.set column v)
  | @sorted before after present new hsort hpresent hstrict hnew =>
    have hlaid := LaidOut.sorted (by simpa using hsort) hpresent hstrict (hnew.set column v)
    have hplace : (if column ∈ present ++ new then present ++ new else present ++ new ++ [column]) =
        present ++ if column ∈ present ++ new then new else new ++ [column] := by
      split_ifs
      · rfl
      · exact List.append_assoc present new [column]
    rw [hplace, List.append_assoc, List.cons_append]
    exact hlaid

theorem sort (hcolumns : ∀ column, column ∈ columns ↔ column ∈ written edits)
    (hstrict : columns.Pairwise (· < ·)) : LaidOut (edits ++ [.sort]) columns := by
  have hlaid := LaidOut.sorted (List.not_mem_nil) hcolumns hstrict (FirstWritten.nil columns)
  rwa [List.append_nil] at hlaid

theorem unique {columns' : List String} (h : LaidOut edits columns) (h' : LaidOut edits columns') :
    columns = columns' := by
  cases h with
  | unsorted hsort hnew =>
    cases h' with
    | unsorted _ hnew' => exact hnew.unique hnew'
    | sorted => simp at hsort
  | @sorted before after present new hsort hpresent hstrict hnew =>
    generalize hedits : before ++ .sort :: after = edits at h'
    cases h' with
    | unsorted hsort' => simp [← hedits] at hsort'
    | @sorted _ _ present' new' hsort' hpresent' hstrict' hnew' =>
      obtain ⟨rfl, rfl⟩ := eq_of_last_sort_eq hsort hsort' hedits
      have hperm : present.Perm present' :=
        (List.perm_ext_iff_of_nodup (hstrict.imp ne_of_lt) (hstrict'.imp ne_of_lt)).2 fun column => by
          rw [hpresent, hpresent']
      obtain rfl := eq_of_perm_of_pairwise hperm (hstrict.imp le_of_lt) (hstrict'.imp le_of_lt)
      rw [hnew.unique hnew']

end LaidOut

theorem laidOut_edited (edits : List Edit) : LaidOut edits (edited edits).columns := by
  induction edits using List.reverseRecOn with
  | nil => exact .unsorted List.not_mem_nil (FirstWritten.nil [])
  | append_singleton edits edit ih =>
    cases edit with
    | set column v =>
      rw [edited_append_set, columns_set]
      exact ih.set column v
    | sort =>
      rw [edited_append_sort, columns_sorted]
      refine .sort (fun column => ?_) (edited edits).sortedColumns_strict
      rw [(edited edits).sortedColumns_perm.mem_iff, mem_columns_edited_iff]

theorem records_edited (edits : List Edit) : Records edits (edited edits) where
  nodup := (edited edits).nodup_columns
  get?_iff := get?_edited_iff edits
  contains_iff column := by rw [contains_iff, mem_columns_edited_iff, mem_written_iff]
  size_eq := by
    rw [← length_columns, ← List.toFinset_card_of_nodup (edited edits).nodup_columns]
    congr 1
    ext column
    rw [List.mem_toFinset, List.mem_toFinset, mem_columns_edited_iff]
  laidOut := laidOut_edited edits

theorem Records.unique {edits : List Edit} {r s : Row} (hr : Records edits r)
    (hs : Records edits s) : r = s := by
  refine eq_of_columns_of_get? (hr.laidOut.unique hs.laidOut) fun column => Option.ext fun v => ?_
  rw [hr.get?_iff, hs.get?_iff]

theorem ofList_eq_edited (es : List (String × Value)) :
    ofList es = edited (es.map fun e => .set e.1 e.2) := by
  induction es using List.reverseRecOn with
  | nil => rfl
  | append_singleton es e ih =>
    rw [List.map_append, List.map_singleton, edited_append_set, ← ih]
    apply Row.ext
    simp [Entries.ofList]

/-- After any edits a row is a finite map: distinct columns, each with the last value written to it,
in the order of the last sort and of the first writes since. These facts single it out among all rows.
A write to a column changes no other one and moves none that is there, and a sort changes no value. -/
theorem edited_is_ordered_map (edits : List Edit) :
    (∀ r, Records edits r ↔ r = edited edits) ∧
      (∀ column v other, other ≠ column →
        ((edited edits).set column v).get? other = (edited edits).get? other) ∧
      (∀ column v, column ∈ (edited edits).columns →
        ((edited edits).set column v).columns = (edited edits).columns) ∧
      (∀ column, (edited edits).sorted.get? column = (edited edits).get? column) ∧
      ∀ es, ofList es = edited (es.map fun e => .set e.1 e.2) := by
  refine ⟨fun r => ⟨fun hr => hr.unique (records_edited edits), ?_⟩, fun column v other hother => ?_,
    fun column v hcolumn => ?_, (edited edits).get?_sorted, ofList_eq_edited⟩
  · rintro rfl
    exact records_edited edits
  · rw [get?_set, if_neg hother]
  · rw [columns_set, if_pos hcolumn]

/-- Two columns are sorted, two come later, and one of each is overwritten. -/
theorem edited_is_ordered_map_overwritten :
    let edits : List Edit := [.set "b" (.raw "1"), .set "a" (.raw "2"), .sort, .set "c" (.raw "3"),
      .set "b" (.raw "4"), .set "aa" (.raw "5"), .set "c" (.raw "6")]
    (edited edits).columns = ["a", "b", "c", "aa"] ∧
      (edited edits).get? "c" = some (.raw "6") ∧
      ("b" ≠ "c" ∧ ((edited edits).set "c" (.raw "7")).get? "b" = (edited edits).get? "b") ∧
      "b" ∈ (edited edits).columns ∧
        ((edited edits).set "b" (.raw "8")).columns = (edited edits).columns := by
  intro edits
  obtain ⟨hrecords, hother, hplace, -, -⟩ := edited_is_ordered_map edits
  have hmade : Records edits (edited edits) := (hrecords _).2 rfl
  have hnew : FirstWritten (edits.drop 3) ["a", "b"] ["c", "aa"] :=
    ⟨fun column => by simp [edits, written, Edit.column?]; grind, by decide⟩
  have hlaid : LaidOut (edits.take 2 ++ .sort :: edits.drop 3) (["a", "b"] ++ ["c", "aa"]) :=
    .sorted (by decide) (fun column => by simp [edits, written, Edit.column?, or_comm]) (by decide)
      hnew
  have hcolumns : (edited edits).columns = ["a", "b", "c", "aa"] := hmade.laidOut.unique hlaid
  have hb : "b" ∈ (edited edits).columns := by simp [hcolumns]
  have hc : LastWritten edits "c" (.raw "6") := ⟨edits.take 6, [], rfl, by simp⟩
  exact ⟨hcolumns, (hmade.get?_iff "c" _).2 hc, ⟨by decide, hother "c" _ "b" (by decide)⟩, hb,
    hplace "b" _ hb⟩

end BulkWrite.Row
