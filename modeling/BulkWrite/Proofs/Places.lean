import BulkWrite.Input
import BulkWrite.Proofs.Literals

/-!
Where a value stands in a document of rows or of assignments, and what it decides there. The first
item that does not fit is the error, and in a result each value is in its place
(`Cell.rows_decided`, `Cell.update_decided`).
-/
namespace BulkWrite

namespace Input

section
variable {α β ε : Type} {f : α → Except ε β} {xs ys : List α} {y : α}

theorem map_eq_ok_iff {x : Except ε α} {g : α → β} {b : β} :
    x.map g = .ok b ↔ ∃ a, x = .ok a ∧ g a = b := by
  cases x <;> simp [Except.map]

theorem map_eq_error_iff {x : Except ε α} {g : α → β} {e : ε} :
    x.map g = .error e ↔ x = .error e := by
  cases x <;> simp [Except.map]

theorem mapM_cons_eq_ok_iff {zs : List β} :
    (y :: ys).mapM f = .ok zs ↔ ∃ b bs, f y = .ok b ∧ ys.mapM f = .ok bs ∧ zs = b :: bs := by
  rw [List.mapM_cons]
  cases f y with
  | error e => simp [bind, Except.bind]
  | ok b =>
    cases ys.mapM f with
    | error e => simp [bind, Except.bind]
    | ok bs => simp [bind, Except.bind, pure, Except.pure, eq_comm]

theorem mapM_append_eq_ok_iff {zs : List β} :
    (xs ++ ys).mapM f = .ok zs ↔
      ∃ as bs, xs.mapM f = .ok as ∧ ys.mapM f = .ok bs ∧ zs = as ++ bs := by
  induction xs generalizing zs with
  | nil => simp [pure, Except.pure]
  | cons x xs ih =>
    simp only [List.cons_append, mapM_cons_eq_ok_iff, ih]
    constructor
    · rintro ⟨a, -, ha, ⟨as, bs, has, hbs, rfl⟩, rfl⟩
      exact ⟨a :: as, bs, ⟨a, as, ha, has, rfl⟩, hbs, rfl⟩
    · rintro ⟨-, bs, ⟨a, as, ha, has, rfl⟩, hbs, rfl⟩
      exact ⟨a, as ++ bs, ha, ⟨as, bs, has, hbs, rfl⟩, rfl⟩

theorem length_of_mapM_eq_ok {as : List β} (h : xs.mapM f = .ok as) : as.length = xs.length := by
  induction xs generalizing as with
  | nil =>
    obtain rfl := Except.ok.inj h
    rfl
  | cons x xs ih =>
    obtain ⟨a, as, -, has, rfl⟩ := mapM_cons_eq_ok_iff.1 h
    simp [ih has]

theorem mapM_append_cons_eq_error {as : List β} {e : ε} (hx : xs.mapM f = .ok as)
    (hy : f y = .error e) : (xs ++ y :: ys).mapM f = .error e := by
  rw [List.mapM_append, hx, List.mapM_cons, hy]
  rfl

theorem mapM_cons_eq_error_iff {e : ε} :
    (y :: ys).mapM f = .error e ↔ f y = .error e ∨ ∃ b, f y = .ok b ∧ ys.mapM f = .error e := by
  rw [List.mapM_cons]
  cases f y with
  | error e' => simp [bind, Except.bind]
  | ok b => cases ys.mapM f <;> simp [bind, Except.bind, pure, Except.pure]

theorem exists_mem_of_mapM_eq_error {e : ε} (h : xs.mapM f = .error e) :
    ∃ x ∈ xs, f x = .error e := by
  induction xs with
  | nil => cases h
  | cons x xs ih =>
    obtain hx | ⟨-, -, hxs⟩ := mapM_cons_eq_error_iff.1 h
    · exact ⟨x, List.mem_cons_self, hx⟩
    · obtain ⟨x', hm, hx'⟩ := ih hxs
      exact ⟨x', List.mem_cons_of_mem _ hm, hx'⟩

end

end Input

namespace Json

variable {ν μ : Type}

/-- The items of an array. Any other document is one item. -/
def Tree.items : Tree ν → List (Tree ν)
  | array items => items
  | t => [t]

theorem Tree.items_map (f : ν → μ) (t : Tree ν) : (t.map f).items = t.items.map (map f) := by
  cases t <;> simp [map, items]

theorem Tree.Distinct.items {t : Tree ν} (h : t.Distinct) : ∀ i ∈ t.items, i.Distinct := by
  intro i hi
  cases t with
  | array items =>
    cases h with
    | array h => exact h i hi
  | _ =>
    obtain rfl := List.mem_singleton.1 hi
    exact h

/-- A document that consists of items: an array, or an object by itself. -/
def Tree.Itemized (t : Tree ν) : Prop := t.kind = .array ∨ t.kind = .object

/-- A place in a document: a member of one of its items, with everything around it. -/
structure Cell (doc : Tree ν) where
  before : List (Tree ν)
  membersBefore : List (String × Tree ν)
  column : String
  value : Tree ν
  membersAfter : List (String × Tree ν)
  after : List (Tree ν)
  items_eq : doc.items =
    before ++ .object (membersBefore ++ (column, value) :: membersAfter) :: after

namespace Cell

variable {doc : Tree ν}

def earlier (cell : Cell doc) : Tree ν :=
  .array (cell.before ++ [.object cell.membersBefore])

def map (f : ν → μ) (cell : Cell doc) : Cell (doc.map f) where
  before := cell.before.map (Tree.map f)
  membersBefore := cell.membersBefore.map fun m => (m.1, m.2.map f)
  column := cell.column
  value := cell.value.map f
  membersAfter := cell.membersAfter.map fun m => (m.1, m.2.map f)
  after := cell.after.map (Tree.map f)
  items_eq := by simp [Tree.items_map, cell.items_eq, Tree.map]

theorem earlier_map (f : ν → μ) (cell : Cell doc) : (cell.map f).earlier = cell.earlier.map f := by
  simp [earlier, map, Tree.map]

theorem itemized (cell : Cell doc) : doc.Itemized := by
  have h := cell.items_eq
  cases doc with
  | array items => exact .inl rfl
  | object members => exact .inr rfl
  | _ => simp [Tree.items, List.singleton_eq_append_iff] at h

end Cell

end Json

namespace Input

/-- The result of a document is decided at a place: `earlier` is the result of what stands before the
place, `here` the value read there, and `holds` tells what a result has there. -/
structure DecidedAt {α β : Type} (result : Except InputError α) (earlier : Except InputError β)
    (here : Except InputError Value) (holds : α → Value → Prop) : Prop where
  of_ok : ∀ a, result = .ok a → ∃ x, here = .ok x ∧ ∀ y, holds a y ↔ y = x
  of_error : ∀ b e, earlier = .ok b → here = .error e → result = .error e

/-- The row at `index` has `x` under `column`. -/
def RowsHold (index : Nat) (column : String) (rows : List Row) (x : Value) : Prop :=
  ∃ row, rows[index]? = some row ∧ row.get? column = some x

/-- The entry that follows the `earlier` ones assigns `x` to `column`. -/
def UpdateHolds (earlier : Except InputError UpdateSpec) (column : String) (update : UpdateSpec)
    (x : Value) : Prop :=
  ∃ before after, earlier = .ok before ∧ update = before ++ .assign column x :: after

theorem cells_eq (members : List (String × Json)) :
    cells members = members.mapM fun m => (value m.2).map (Prod.mk m.1) :=
  rfl

theorem row_object (members : List (String × Json)) :
    row (.object members) = (cells members).map Row.ofList := rfl

def assignAll (es : List (String × Value)) : UpdateSpec := es.map fun e => .assign e.1 e.2

theorem assignAll_append_cons (es fs : List (String × Value)) (column : String) (x : Value) :
    assignAll (es ++ (column, x) :: fs) = assignAll es ++ .assign column x :: assignAll fs := by
  simp [assignAll]

theorem updateItem_object (members : List (String × Json)) :
    updateItem (.object members) = (cells members).map assignAll := by
  rw [updateItem, assignments]
  cases cells members <;> rfl

theorem rows_of_itemized {doc : Json} (h : doc.Itemized) : rows doc = doc.items.mapM row := by
  cases doc with
  | array items => rfl
  | object members => rfl
  | _ => simp [Json.Tree.Itemized, Json.Tree.kind] at h

theorem update_of_itemized {doc : Json} (h : doc.Itemized) :
    update doc = (doc.items.mapM updateItem).map List.flatten := by
  cases doc with
  | array items =>
    simp only [update, Json.Tree.items]
    cases items.mapM updateItem <;> rfl
  | object members =>
    simp only [update, Json.Tree.items, List.mapM_cons, updateItem]
    cases assignments members <;> simp [Except.map, bind, Except.bind, pure, Except.pure]
  | _ => simp [Json.Tree.Itemized, Json.Tree.kind] at h

section
variable {before after : List (String × Json)} {column : String} {json : Json}

theorem cells_append_cons_eq_ok_iff {es : List (String × Value)} :
    cells (before ++ (column, json) :: after) = .ok es ↔
      ∃ bs x as, cells before = .ok bs ∧ value json = .ok x ∧ cells after = .ok as ∧
        es = bs ++ (column, x) :: as := by
  simp only [cells_eq, mapM_append_eq_ok_iff, mapM_cons_eq_ok_iff, map_eq_ok_iff]
  constructor
  · rintro ⟨bs, -, hbs, ⟨-, as, ⟨x, hx, rfl⟩, has, rfl⟩, rfl⟩
    exact ⟨bs, x, as, hbs, hx, has, rfl⟩
  · rintro ⟨bs, x, as, hbs, hx, has, rfl⟩
    exact ⟨bs, _, hbs, ⟨_, as, ⟨x, hx, rfl⟩, has, rfl⟩, rfl⟩

theorem cells_append_cons_eq_error {bs : List (String × Value)} {e : InputError}
    (hb : cells before = .ok bs) (h : value json = .error e) :
    cells (before ++ (column, json) :: after) = .error e := by
  rw [cells_eq] at hb ⊢
  exact mapM_append_cons_eq_error hb (map_eq_error_iff.2 h)

end

theorem names_of_cells_eq_ok {members : List (String × Json)} {es : List (String × Value)}
    (h : cells members = .ok es) : Entries.names es = Entries.names members := by
  rw [cells_eq] at h
  induction members generalizing es with
  | nil =>
    obtain rfl := Except.ok.inj h
    rfl
  | cons m ms ih =>
    obtain ⟨e, es, he, hes, rfl⟩ := mapM_cons_eq_ok_iff.1 h
    obtain ⟨x, -, rfl⟩ := map_eq_ok_iff.1 he
    rw [Entries.names_cons, Entries.names_cons, ih hes]

end Input

namespace Json.Cell

open Input

variable {doc : Json}

theorem rows_eq (cell : Cell doc) : rows doc = doc.items.mapM row :=
  rows_of_itemized cell.itemized

theorem update_eq (cell : Cell doc) :
    update doc = (doc.items.mapM updateItem).map List.flatten :=
  update_of_itemized cell.itemized

theorem update_earlier_eq (cell : Cell doc) : update cell.earlier =
    ((cell.before ++ [Tree.object cell.membersBefore]).mapM updateItem).map List.flatten :=
  update_of_itemized (.inl rfl)

theorem nodup_names (cell : Cell doc) (hd : doc.Distinct) :
    (Entries.names (cell.membersBefore ++ (cell.column, cell.value) :: cell.membersAfter)).Nodup := by
  have hmem : Tree.object (cell.membersBefore ++ (cell.column, cell.value) :: cell.membersAfter) ∈
      doc.items := by
    rw [cell.items_eq]
    simp
  cases hd.items _ hmem with
  | object hn _ => exact hn

section

/- Rows and assignments are read alike: `f` reads an item, and `g` puts the cells of an object
together. -/
variable {α : Type} {f : Json → Except InputError α} {g : List (String × Value) → α}

theorem mapM_items_eq_ok_iff (hf : ∀ members, f (.object members) = (cells members).map g)
    (cell : Cell doc) {rs : List α} :
    doc.items.mapM f = .ok rs ↔ ∃ bs es x fs as, cell.before.mapM f = .ok bs ∧
      cells cell.membersBefore = .ok es ∧ Input.value cell.value = .ok x ∧
      cells cell.membersAfter = .ok fs ∧ cell.after.mapM f = .ok as ∧
      rs = bs ++ g (es ++ (cell.column, x) :: fs) :: as := by
  simp only [cell.items_eq, mapM_append_eq_ok_iff, mapM_cons_eq_ok_iff, hf, map_eq_ok_iff,
    cells_append_cons_eq_ok_iff]
  constructor
  · rintro ⟨bs, -, hbs, ⟨-, as, ⟨-, ⟨es, x, fs, hes, hx, hfs, rfl⟩, rfl⟩, has, rfl⟩, rfl⟩
    exact ⟨bs, es, x, fs, as, hbs, hes, hx, hfs, has, rfl⟩
  · rintro ⟨bs, es, x, fs, as, hbs, hes, hx, hfs, has, rfl⟩
    exact ⟨bs, _, hbs, ⟨_, as, ⟨_, ⟨es, x, fs, hes, hx, hfs, rfl⟩, rfl⟩, has, rfl⟩, rfl⟩

theorem mapM_earlier_eq_ok_iff (hf : ∀ members, f (.object members) = (cells members).map g)
    (cell : Cell doc) {rs : List α} :
    (cell.before ++ [Tree.object cell.membersBefore]).mapM f = .ok rs ↔
      ∃ bs es, cell.before.mapM f = .ok bs ∧ cells cell.membersBefore = .ok es ∧
        rs = bs ++ [g es] := by
  simp only [mapM_append_eq_ok_iff, mapM_cons_eq_ok_iff, hf, map_eq_ok_iff]
  constructor
  · rintro ⟨bs, -, hbs, ⟨-, as, ⟨es, hes, rfl⟩, has, rfl⟩, rfl⟩
    obtain rfl := Except.ok.inj has
    exact ⟨bs, es, hbs, hes, rfl⟩
  · rintro ⟨bs, es, hbs, hes, rfl⟩
    exact ⟨bs, _, hbs, ⟨_, [], ⟨es, hes, rfl⟩, rfl, rfl⟩, rfl⟩

theorem mapM_items_eq_error (hf : ∀ members, f (.object members) = (cells members).map g)
    (cell : Cell doc) {rs : List α} {e : InputError}
    (hb : (cell.before ++ [Tree.object cell.membersBefore]).mapM f = .ok rs)
    (he : Input.value cell.value = .error e) : doc.items.mapM f = .error e := by
  obtain ⟨bs, es, hbs, hes, -⟩ := (cell.mapM_earlier_eq_ok_iff hf).1 hb
  rw [cell.items_eq]
  refine mapM_append_cons_eq_error hbs ?_
  rw [hf, map_eq_error_iff]
  exact cells_append_cons_eq_error hes he

end

theorem rows_decided (cell : Cell doc) (hd : doc.Distinct) :
    DecidedAt (rows doc) (rows cell.earlier) (Input.value cell.value)
      (RowsHold cell.before.length cell.column) where
  of_ok rs hrs := by
    rw [cell.rows_eq, cell.mapM_items_eq_ok_iff row_object] at hrs
    obtain ⟨bs, es, x, fs, as, hbs, hes, hx, hfs, has, rfl⟩ := hrs
    refine ⟨x, hx, fun y => ?_⟩
    have hrow : (bs ++ Row.ofList (es ++ (cell.column, x) :: fs) :: as)[cell.before.length]? =
        some (Row.ofList (es ++ (cell.column, x) :: fs)) := by
      rw [← length_of_mapM_eq_ok hbs]
      simp
    have hget : (Row.ofList (es ++ (cell.column, x) :: fs)).get? cell.column = some x := by
      have hcells : cells (cell.membersBefore ++ (cell.column, cell.value) :: cell.membersAfter) =
          .ok (es ++ (cell.column, x) :: fs) :=
        cells_append_cons_eq_ok_iff.2 ⟨es, x, fs, hes, hx, hfs, rfl⟩
      have hnodup := names_of_cells_eq_ok hcells ▸ cell.nodup_names hd
      rw [Row.get?, Row.entries_ofList, Entries.ofList_eq_self hnodup,
        Entries.lookup_eq_some_iff_mem hnodup]
      simp
    simp [RowsHold, hrow, hget, eq_comm]
  of_error rs e hrs he := by
    rw [cell.rows_eq]
    exact cell.mapM_items_eq_error row_object hrs he

theorem update_decided (cell : Cell doc) :
    DecidedAt (update doc) (update cell.earlier) (Input.value cell.value)
      (UpdateHolds (update cell.earlier) cell.column) where
  of_ok u hu := by
    rw [cell.update_eq, map_eq_ok_iff] at hu
    obtain ⟨us, hus, rfl⟩ := hu
    obtain ⟨bs, es, x, fs, as, hbs, hes, hx, hfs, has, rfl⟩ :=
      (cell.mapM_items_eq_ok_iff updateItem_object).1 hus
    have hearlier : update cell.earlier = .ok (bs ++ [assignAll es]).flatten := by
      rw [cell.update_earlier_eq, (cell.mapM_earlier_eq_ok_iff updateItem_object).2
        ⟨bs, es, hbs, hes, rfl⟩]
      rfl
    have hsplit : (bs ++ assignAll (es ++ (cell.column, x) :: fs) :: as).flatten =
        (bs ++ [assignAll es]).flatten ++ .assign cell.column x :: (assignAll fs ++ as.flatten) := by
      simp [assignAll_append_cons]
    rw [hsplit]
    refine ⟨x, hx, fun y => ⟨?_, ?_⟩⟩
    · rintro ⟨before, after, hbefore, hy⟩
      rw [hearlier] at hbefore
      obtain rfl := Except.ok.inj hbefore
      simpa [eq_comm] using (List.cons.inj (List.append_cancel_left hy)).1
    · rintro rfl
      exact ⟨_, _, hearlier, rfl⟩
  of_error u e hu he := by
    rw [cell.update_earlier_eq, map_eq_ok_iff] at hu
    obtain ⟨us, hus, -⟩ := hu
    rw [cell.update_eq, cell.mapM_items_eq_error updateItem_object hus he]
    rfl

end Json.Cell

end BulkWrite
