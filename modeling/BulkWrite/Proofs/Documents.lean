import Mathlib.Data.List.Forall2
import BulkWrite.Proofs.Places

/-!
What documents say as rows and as update specs, and which of their items is at fault. A JSON value
stands for at most one value (`Denotes`), and one that stands for none has one fault (`Misfits`). The
first fault is the error (`documents_read`).
-/
namespace BulkWrite

def Json.Tree.members {ν : Type} : Tree ν → List (String × Tree ν)
  | object members => members
  | _ => []

namespace Input

section
variable {α β ε : Type}

/-- A result is `a` exactly if `denotes a`, and an error `e` exactly if `fault e`. -/
structure Reads (result : Except ε α) (denotes : α → Prop) (fault : ε → Prop) : Prop where
  ok_iff : ∀ a, result = .ok a ↔ denotes a
  error_iff : ∀ e, result = .error e ↔ fault e

/-- The first of `xs` that denotes nothing has the fault `e`. -/
def FirstFault (denotes : α → β → Prop) (fault : α → ε → Prop) (xs : List α) (e : ε) : Prop :=
  ∃ before x after, xs = before ++ x :: after ∧ (∀ y ∈ before, ∃ b, denotes y b) ∧ fault x e

theorem firstFault_cons_iff {denotes : α → β → Prop} {fault : α → ε → Prop} {x : α} {xs : List α}
    {e : ε} : FirstFault denotes fault (x :: xs) e ↔
      fault x e ∨ (∃ b, denotes x b) ∧ FirstFault denotes fault xs e := by
  constructor
  · rintro ⟨_ | ⟨y, before⟩, z, after, hsplit, hbefore, hfault⟩
    · obtain ⟨rfl, rfl⟩ := List.cons.inj hsplit
      exact .inl hfault
    · obtain ⟨rfl, rfl⟩ := List.cons.inj hsplit
      obtain ⟨hx, hbefore⟩ := List.forall_mem_cons.1 hbefore
      exact .inr ⟨hx, before, z, after, rfl, hbefore, hfault⟩
  · rintro (hfault | ⟨hx, before, z, after, rfl, hbefore, hfault⟩)
    · exact ⟨[], x, xs, rfl, by simp, hfault⟩
    · exact ⟨x :: before, z, after, rfl, List.forall_mem_cons.2 ⟨hx, hbefore⟩, hfault⟩

namespace Reads

variable {result : Except ε α} {denotes : α → Prop} {fault : ε → Prop}

theorem of_ok {a : α} (h : result = .ok a) (hdenotes : ∀ b, denotes b ↔ b = a)
    (hfault : ∀ e, ¬ fault e) : Reads result denotes fault where
  ok_iff b := by rw [h, hdenotes, Except.ok.injEq, eq_comm]
  error_iff e := by simp [h, hfault]

theorem of_error {e : ε} (h : result = .error e) (hdenotes : ∀ a, ¬ denotes a)
    (hfault : ∀ e', fault e' ↔ e' = e) : Reads result denotes fault where
  ok_iff a := by simp [h, hdenotes]
  error_iff e' := by rw [h, hfault, Except.error.injEq, eq_comm]

theorem accepted_iff (h : Reads result denotes fault) :
    (∃ a, result = .ok a) ↔ ∃ a, denotes a :=
  exists_congr h.ok_iff

theorem map (h : Reads result denotes fault) (g : α → β) :
    Reads (result.map g) (fun b => ∃ a, denotes a ∧ g a = b) fault where
  ok_iff b := by simp only [map_eq_ok_iff, h.ok_iff]
  error_iff e := by rw [map_eq_error_iff, h.error_iff]

theorem mapM {f : α → Except ε β} {denotes : α → β → Prop} {fault : α → ε → Prop} {xs : List α}
    (h : ∀ x ∈ xs, Reads (f x) (denotes x) (fault x)) :
    Reads (xs.mapM f) (List.Forall₂ denotes xs) (FirstFault denotes fault xs) := by
  induction xs with
  | nil =>
    refine of_ok rfl (fun b => List.forall₂_nil_left_iff) fun e => ?_
    simp [FirstFault]
  | cons x xs ih =>
    obtain ⟨hx, hxs⟩ := List.forall_mem_cons.1 h
    refine ⟨fun ys => ?_, fun e => ?_⟩
    · simp only [mapM_cons_eq_ok_iff, List.forall₂_cons_left_iff, hx.ok_iff, (ih hxs).ok_iff,
        exists_and_left]
    · rw [mapM_cons_eq_error_iff, firstFault_cons_iff, exists_and_right, hx.error_iff,
        hx.accepted_iff, (ih hxs).error_iff]

end Reads

end

/-- What a JSON value stands for as the value of a column. -/
inductive Denotes : Json → Value → Prop
  | null : Denotes .null (.bound .null)
  | bool (b : Bool) : Denotes (.bool b) (.bound (.bool b))
  | integer (n : Int64) : Denotes (.number (.integer n.toInt)) (.bound (.int n))
  | real (x : Float) : Denotes (.number (.real x)) (.bound (.float x))
  | string (s : String) : Denotes (.string s) (.bound (.text s))
  | raw (sql : String) : Denotes (.object [("$raw", .string sql)]) (.raw sql)

/-- Why a JSON value cannot be the value of a column. -/
inductive Misfits : Json → InputError → Prop
  | integer {n : Int} (h : n < Int64.minValue.toInt ∨ Int64.maxValue.toInt < n) :
    Misfits (.number (.integer n)) (.integerOutOfRange n)
  | array (items : List Json) : Misfits (.array items) (.unexpected .scalar .array)
  | object {members : List (String × Json)} (h : ∀ sql, members ≠ [("$raw", .string sql)]) :
    Misfits (.object members) (.unexpected .scalarOrRaw .object)

theorem value_of_denotes {json : Json} {v : Value} (h : Denotes json v) : value json = .ok v := by
  cases h with
  | integer n =>
    have hmax : Int64.maxValue.toInt = 9223372036854775807 := rfl
    have hlt := n.toInt_lt
    have hn : Int64.minValue.toInt ≤ n.toInt ∧ n.toInt ≤ Int64.maxValue.toInt :=
      ⟨n.minValue_le_toInt, by omega⟩
    rw [value, integer, if_pos hn, Int64.ofInt_toInt]
  | _ => rfl

theorem value_of_misfits {json : Json} {e : InputError} (h : Misfits json e) :
    value json = .error e := by
  cases h with
  | @integer n h =>
    rw [value, integer, if_neg (by omega)]
  | array items => rfl
  | @object members h =>
    unfold value
    split
    case h_6 key sql heq =>
      obtain rfl := Json.Tree.object.inj heq
      rw [if_neg]
      rintro rfl
      exact h sql rfl
    all_goals simp_all

theorem denotes_or_misfits (json : Json) : (∃ v, Denotes json v) ∨ ∃ e, Misfits json e := by
  cases json with
  | null => exact .inl ⟨_, .null⟩
  | bool b => exact .inl ⟨_, .bool b⟩
  | number n =>
    cases n with
    | integer n =>
      by_cases hn : Int64.minValue.toInt ≤ n ∧ n ≤ Int64.maxValue.toInt
      · have hmin : Int64.minValue.toInt = -9223372036854775808 := rfl
        have hmax : Int64.maxValue.toInt = 9223372036854775807 := rfl
        have h := Denotes.integer (.ofInt n)
        rw [Int64.toInt_ofInt_of_le (by omega) (by omega)] at h
        exact .inl ⟨_, h⟩
      · exact .inr ⟨_, .integer (by omega)⟩
    | real x => exact .inl ⟨_, .real x⟩
  | string s => exact .inl ⟨_, .string s⟩
  | array items => exact .inr ⟨_, .array items⟩
  | object members =>
    by_cases h : ∃ sql, members = [("$raw", .string sql)]
    · obtain ⟨sql, rfl⟩ := h
      exact .inl ⟨_, .raw sql⟩
    · exact .inr ⟨_, .object fun sql hsql => h ⟨sql, hsql⟩⟩

theorem reads_value (json : Json) : Reads (value json) (Denotes json) (Misfits json) where
  ok_iff v := by
    refine ⟨fun h => ?_, value_of_denotes⟩
    obtain ⟨w, hw⟩ | ⟨e, he⟩ := denotes_or_misfits json
    · obtain rfl := Except.ok.inj (h.symm.trans (value_of_denotes hw))
      exact hw
    · exact nomatch h.symm.trans (value_of_misfits he)
  error_iff e := by
    refine ⟨fun h => ?_, value_of_misfits⟩
    obtain ⟨w, hw⟩ | ⟨e', he⟩ := denotes_or_misfits json
    · exact nomatch h.symm.trans (value_of_denotes hw)
    · obtain rfl := Except.error.inj (h.symm.trans (value_of_misfits he))
      exact he

def CellDenotes (m : String × Json) (e : String × Value) : Prop := m.1 = e.1 ∧ Denotes m.2 e.2

abbrev CellFault : List (String × Json) → InputError → Prop :=
  FirstFault CellDenotes fun m => Misfits m.2

theorem reads_cells (members : List (String × Json)) :
    Reads (cells members) (List.Forall₂ CellDenotes members) (CellFault members) := by
  rw [cells_eq]
  refine Reads.mapM fun m _ => ?_
  have h := (reads_value m.2).map (Prod.mk m.1)
  refine ⟨fun e => ?_, h.error_iff⟩
  rw [h.ok_iff]
  constructor
  · rintro ⟨v, hv, rfl⟩
    exact ⟨rfl, hv⟩
  · rintro ⟨hname, hv⟩
    exact ⟨e.2, hv, by rw [hname]⟩

/-- The row that an object stands for has the members as its cells, in order. -/
inductive RowDenotes : Json → Row → Prop
  | object {members : List (String × Json)} {row : Row}
    (h : List.Forall₂ CellDenotes members row.entries) : RowDenotes (.object members) row

inductive RowFault : Json → InputError → Prop
  | member {members : List (String × Json)} {e : InputError} (h : CellFault members e) :
    RowFault (.object members) e
  | other {json : Json} (h : json.kind ≠ .object) : RowFault json (.unexpected .row json.kind)

inductive ItemDenotes : Json → UpdateSpec → Prop
  | string (column : String) : ItemDenotes (.string column) [.inserted column]
  | object {members : List (String × Json)} {es : List (String × Value)}
    (h : List.Forall₂ CellDenotes members es) : ItemDenotes (.object members) (assignAll es)

inductive ItemFault : Json → InputError → Prop
  | member {members : List (String × Json)} {e : InputError} (h : CellFault members e) :
    ItemFault (.object members) e
  | other {json : Json} (hstring : json.kind ≠ .string) (hobject : json.kind ≠ .object) :
    ItemFault json (.unexpected .updateItem json.kind)

theorem reads_row {json : Json} (hd : json.Distinct) :
    Reads (row json) (RowDenotes json) (RowFault json) := by
  cases json with
  | object members =>
    rw [row_object]
    cases hd with
    | object hn _ =>
      have h := (reads_cells members).map Row.ofList
      refine ⟨fun r => ?_, fun e => ?_⟩
      · rw [h.ok_iff]
        constructor
        · rintro ⟨es, hes, rfl⟩
          have hnames : Entries.names es = Entries.names members :=
            names_of_cells_eq_ok (((reads_cells members).ok_iff es).2 hes)
          refine .object ?_
          rwa [Row.entries_ofList, Entries.ofList_eq_self (hnames ▸ hn)]
        · rintro ⟨hes⟩
          exact ⟨r.entries, hes, Row.ext (Entries.ofList_eq_self r.nodup)⟩
      · rw [h.error_iff]
        constructor
        · exact .member
        · rintro (⟨hfault⟩ | ⟨hkind⟩)
          · exact hfault
          · exact absurd rfl hkind
  | _ =>
    refine Reads.of_error rfl (fun r h => by cases h) fun e => ⟨fun h => ?_, fun h => ?_⟩
    · cases h
      rfl
    · rw [h]
      exact .other (by simp [Json.Tree.kind])

theorem reads_updateItem (json : Json) :
    Reads (updateItem json) (ItemDenotes json) (ItemFault json) := by
  cases json with
  | string column =>
    refine Reads.of_ok rfl (fun u => ⟨fun h => ?_, fun h => ?_⟩) fun e h => ?_
    · cases h
      rfl
    · rw [h]
      exact .string column
    · cases h with
      | other hstring _ => exact hstring rfl
  | object members =>
    rw [updateItem_object]
    have h := (reads_cells members).map assignAll
    refine ⟨fun u => ?_, fun e => ?_⟩
    · rw [h.ok_iff]
      constructor
      · rintro ⟨es, hes, rfl⟩
        exact .object hes
      · intro hu
        cases hu with
        | object hes => exact ⟨_, hes, rfl⟩
    · rw [h.error_iff]
      constructor
      · exact .member
      · rintro (⟨hfault⟩ | ⟨-, hkind⟩)
        · exact hfault
        · exact absurd rfl hkind
  | _ =>
    refine Reads.of_error rfl (fun r h => by cases h) fun e => ⟨fun h => ?_, fun h => ?_⟩
    · cases h
      rfl
    · rw [h]
      exact .other (by simp [Json.Tree.kind]) (by simp [Json.Tree.kind])

/-- A document stands for what its items stand for, in order. -/
def ListDenotes {α : Type} (denotes : Json → α → Prop) (doc : Json) (as : List α) : Prop :=
  doc.Itemized ∧ List.Forall₂ denotes doc.items as

/-- A document without items is at fault itself, and any other one for the first item that is. -/
def ListFault {α : Type} (denotes : Json → α → Prop) (fault : Json → InputError → Prop)
    (expected : Expectation) (doc : Json) (e : InputError) : Prop :=
  (¬ doc.Itemized ∧ e = .unexpected expected doc.kind) ∨
    doc.Itemized ∧ FirstFault denotes fault doc.items e

theorem exists_forall₂_iff {α β : Type} {R : α → β → Prop} {xs : List α} :
    (∃ ys, List.Forall₂ R xs ys) ↔ ∀ x ∈ xs, ∃ y, R x y := by
  induction xs with
  | nil => simp
  | cons x xs ih =>
    simp only [List.forall₂_cons_left_iff, List.forall_mem_cons, ← ih]
    constructor
    · rintro ⟨-, y, ys, hy, hys, rfl⟩
      exact ⟨⟨y, hy⟩, ys, hys⟩
    · rintro ⟨⟨y, hy⟩, ys, hys⟩
      exact ⟨y :: ys, y, ys, hy, hys, rfl⟩

theorem cells_accepted_iff (members : List (String × Json)) :
    (∃ es, cells members = .ok es) ↔ ∀ m ∈ members, ∃ v, Denotes m.2 v := by
  rw [(reads_cells members).accepted_iff, exists_forall₂_iff]
  refine forall₂_congr fun m _ => ⟨?_, ?_⟩
  · rintro ⟨e, -, he⟩
    exact ⟨e.2, he⟩
  · rintro ⟨v, hv⟩
    exact ⟨(m.1, v), rfl, hv⟩

theorem object_accepted_iff {α : Type} {f : Json → Except InputError α}
    {g : List (String × Value) → α} {members : List (String × Json)}
    (hf : f (.object members) = (cells members).map g) :
    (∃ a, f (.object members) = .ok a) ↔ ∀ m ∈ members, ∃ v, Denotes m.2 v := by
  rw [hf, ← cells_accepted_iff]
  simp only [map_eq_ok_iff]
  constructor
  · rintro ⟨-, es, hes, -⟩
    exact ⟨es, hes⟩
  · rintro ⟨es, hes⟩
    exact ⟨g es, es, hes, rfl⟩

theorem row_accepted_iff (json : Json) : (∃ r, row json = .ok r) ↔
    json.kind ∈ [Json.Kind.object] ∧ ∀ m ∈ json.members, ∃ v, Denotes m.2 v := by
  cases json with
  | object members => simp [object_accepted_iff (row_object members), Json.Tree.kind, Json.Tree.members]
  | _ => simp [row, Json.Tree.kind]

theorem updateItem_accepted_iff (json : Json) : (∃ u, updateItem json = .ok u) ↔
    json.kind ∈ [Json.Kind.string, .object] ∧ ∀ m ∈ json.members, ∃ v, Denotes m.2 v := by
  cases json with
  | object members =>
    simp [object_accepted_iff (updateItem_object members), Json.Tree.kind, Json.Tree.members]
  | _ => simp [updateItem, Json.Tree.kind, Json.Tree.members]

/-- The document has items, these are of the given kinds, and the values of all their members stand
for something. -/
def Fits (kinds : List Json.Kind) (doc : Json) : Prop :=
  doc.Itemized ∧ ∀ item ∈ doc.items, item.kind ∈ kinds ∧ ∀ m ∈ item.members, ∃ v, Denotes m.2 v

section

/- Rows and updates are read alike: `f` reads an item, and `g` puts the results together. -/
variable {α β : Type} {f : Json → Except InputError α} {g : List α → β} {doc : Json}
  {result : Except InputError β} {expected : Expectation}

theorem reads_items {denotes : Json → α → Prop} {fault : Json → InputError → Prop}
    (hf : ∀ item ∈ doc.items, Reads (f item) (denotes item) (fault item))
    (hitems : doc.Itemized → result = (doc.items.mapM f).map g)
    (hother : ¬ doc.Itemized → result = .error (.unexpected expected doc.kind)) :
    Reads result (fun b => ∃ as, ListDenotes denotes doc as ∧ g as = b)
      (ListFault denotes fault expected doc) := by
  by_cases h : doc.Itemized
  · rw [hitems h]
    have hmap := (Reads.mapM hf).map g
    refine ⟨fun b => ?_, fun e => ?_⟩
    · simp [ListDenotes, h, hmap.ok_iff]
    · simp [ListFault, h, hmap.error_iff]
  · refine Reads.of_error (hother h) (fun b => ?_) fun e => ?_
    · simp [ListDenotes, h]
    · simp [ListFault, h]

theorem items_accepted_iff {kinds : List Json.Kind}
    (hf : ∀ item : Json, (∃ a, f item = .ok a) ↔
      item.kind ∈ kinds ∧ ∀ m ∈ item.members, ∃ v, Denotes m.2 v)
    (hitems : doc.Itemized → result = (doc.items.mapM f).map g)
    (hother : ¬ doc.Itemized → result = .error (.unexpected expected doc.kind)) :
    (∃ b, result = .ok b) ↔ Fits kinds doc := by
  by_cases h : doc.Itemized
  · have hmapM : Reads (doc.items.mapM f) _ _ :=
      Reads.mapM fun item _ => ⟨fun a => Iff.rfl, fun e => Iff.rfl⟩
    have hmap : (∃ b, result = .ok b) ↔ ∃ as, doc.items.mapM f = .ok as := by
      rw [hitems h]
      simp [map_eq_ok_iff]
    rw [hmap, hmapM.accepted_iff, exists_forall₂_iff]
    simp only [hf, Fits, h, true_and]
  · simp [hother h, Fits, h]

end

theorem rows_of_not_itemized {doc : Json} (h : ¬ doc.Itemized) :
    rows doc = .error (.unexpected .rows doc.kind) := by
  cases doc with
  | array _ | object _ => simp [Json.Tree.Itemized, Json.Tree.kind] at h
  | _ => rfl

theorem update_of_not_itemized {doc : Json} (h : ¬ doc.Itemized) :
    update doc = .error (.unexpected .update doc.kind) := by
  cases doc with
  | array _ | object _ => simp [Json.Tree.Itemized, Json.Tree.kind] at h
  | _ => rfl

theorem rows_of_itemized_map {doc : Json} (h : doc.Itemized) :
    rows doc = (doc.items.mapM row).map id := by
  rw [rows_of_itemized h, Except.map_id, id]

theorem reads_rows {doc : Json} (hd : doc.Distinct) :
    Reads (rows doc) (ListDenotes RowDenotes doc) (ListFault RowDenotes RowFault .rows doc) := by
  have h := reads_items (fun item hitem => reads_row (hd.items item hitem)) rows_of_itemized_map
    rows_of_not_itemized
  simpa using h

theorem reads_update (doc : Json) :
    Reads (update doc) (fun u => ∃ parts, ListDenotes ItemDenotes doc parts ∧ parts.flatten = u)
      (ListFault ItemDenotes ItemFault .update doc) :=
  reads_items (fun item _ => reads_updateItem item) update_of_itemized update_of_not_itemized

theorem parse_of_eq_some {α : Type} {read : Json → Except InputError α} {text : String} {doc : Json}
    (h : Json.parse? text = some doc) : (json text >>= read) = read doc := by
  rw [json, h]
  rfl

/-- A text is accepted exactly if its document has items that fit, and then stands for what these
stand for, in order. Otherwise the error is that of the document itself or of its first item at
fault, and in an object that of its first member at fault. An object by itself is read as an array
of it. -/
theorem documents_read {doc : Json} (hd : doc.Distinct) :
    (∀ text, Json.parse? text = some doc →
        parseRows text = rows doc ∧ parseUpdate text = update doc) ∧
      ((∃ rs, rows doc = .ok rs) ↔ Fits [.object] doc) ∧
      Reads (rows doc) (ListDenotes RowDenotes doc) (ListFault RowDenotes RowFault .rows doc) ∧
      ((∃ u, update doc = .ok u) ↔ Fits [.string, .object] doc) ∧
      Reads (update doc) (fun u => ∃ parts, ListDenotes ItemDenotes doc parts ∧ parts.flatten = u)
        (ListFault ItemDenotes ItemFault .update doc) ∧
      (doc.kind = .object → rows doc = rows (.array [doc]) ∧ update doc = update (.array [doc])) := by
  refine ⟨fun text htext => ?_, ?_, reads_rows hd, ?_, reads_update doc, fun hkind => ?_⟩
  · exact ⟨parse_of_eq_some htext, parse_of_eq_some htext⟩
  · exact items_accepted_iff row_accepted_iff rows_of_itemized_map rows_of_not_itemized
  · exact items_accepted_iff updateItem_accepted_iff update_of_itemized update_of_not_itemized
  · have hitems : (Json.Tree.array [doc]).items = doc.items := by
      cases doc with
      | object members => rfl
      | _ => cases hkind
    rw [rows_of_itemized (.inr hkind), update_of_itemized (.inr hkind), ← hitems,
      ← rows_of_itemized (.inl rfl), ← update_of_itemized (.inl rfl)]
    exact ⟨rfl, rfl⟩

def secondMisfits : Json :=
  .array [.object [("$raw", .string "a"), ("", .number (.integer 1))],
    .object [("a", .null), ("b", .object [("$raw", .string "now()"), ("c", .null)]),
      ("c", .array [])],
    .number (.real 0.5)]

/-- A marker with another member beside it is no raw expression. It is found before the array in the
next member and before the number. -/
theorem documents_read_second_misfits :
    secondMisfits.Distinct ∧ rows secondMisfits = .error (.unexpected .scalarOrRaw .object) ∧
      update secondMisfits = .error (.unexpected .scalarOrRaw .object) := by
  have hd : secondMisfits.Distinct := by
    refine .array ?_
    simp only [List.forall_mem_cons, List.not_mem_nil, false_imp_iff, implies_true, and_true]
    refine ⟨.object (by decide) ?_, .object (by decide) ?_, .number _⟩
    · simp [Json.Tree.Distinct.string, Json.Tree.Distinct.number]
    · have hmarker : Json.Tree.Distinct
          (.object [("$raw", .string "now()"), ("c", .null)] : Json) :=
        .object (by decide) (by simp [Json.Tree.Distinct.string, Json.Tree.Distinct.null])
      simp [Json.Tree.Distinct.null, Json.Tree.Distinct.array, hmarker]
  have hfirst : List.Forall₂ CellDenotes
      [("$raw", .string "a"), ("", .number (.integer (1 : Int64).toInt))]
      [("$raw", .bound (.text "a")), ("", .bound (.int 1))] :=
    .cons ⟨rfl, .string "a"⟩ (.cons ⟨rfl, .integer 1⟩ .nil)
  have hfault : CellFault [("a", .null), ("b", .object [("$raw", .string "now()"), ("c", .null)]),
      ("c", .array [])] (.unexpected .scalarOrRaw .object) :=
    ⟨[("a", .null)], _, [("c", .array [])], rfl,
      fun m hm => ⟨("a", .bound .null), List.mem_singleton.1 hm ▸ ⟨rfl, .null⟩⟩,
      .object fun sql => by simp⟩
  obtain ⟨-, -, hrows, -, hupdate, -⟩ := documents_read hd
  refine ⟨hd, (hrows.error_iff _).2 (.inr ⟨.inl rfl, ?_⟩),
    (hupdate.error_iff _).2 (.inr ⟨.inl rfl, ?_⟩)⟩
  · refine ⟨[_], _, [_], rfl, fun item hitem => ?_, .member hfault⟩
    obtain rfl := List.mem_singleton.1 hitem
    exact ⟨⟨_, by decide⟩, .object hfirst⟩
  · refine ⟨[_], _, [_], rfl, fun item hitem => ?_, .member hfault⟩
    obtain rfl := List.mem_singleton.1 hitem
    exact ⟨_, .object hfirst⟩

end Input

end BulkWrite
