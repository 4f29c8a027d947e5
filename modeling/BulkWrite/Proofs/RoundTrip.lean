import BulkWrite.Proofs.Documents
import BulkWrite.Proofs.Finiteness

/-!
Rows and update specs as documents. One without blobs, and without numbers that are not finite, is
read back from its document as it was, and no text is read as any other one. Main statement:
`documents_round_trip`.
-/
namespace BulkWrite

namespace Value

def isExpressible : Value → Bool
  | bound (.blob _) => false
  | bound (.float x) => x.isFinite
  | _ => true

/-- A blob is a list of its bytes, which stands for no value. -/
def toJson : Value → Json
  | bound .null => .null
  | bound (.bool b) => .bool b
  | bound (.int n) => .number (.integer n.toInt)
  | bound (.float x) => .number (.real x)
  | bound (.text s) => .string s
  | bound (.blob bytes) => .array (bytes.map fun b => .number (.integer b.toNat))
  | raw sql => .object [("$raw", .string sql)]

theorem distinct_toJson (v : Value) : Json.Tree.Distinct v.toJson := by
  match v with
  | bound .null => exact .null
  | bound (.bool b) => exact .bool b
  | bound (.int n) => exact .number _
  | bound (.float x) => exact .number _
  | bound (.text s) => exact .string s
  | bound (.blob bytes) => exact .array (by simp [Json.Tree.Distinct.number])
  | raw sql => exact .object (by simp) (by simp [Json.Tree.Distinct.string])

theorem denotes_toJson {v : Value} (h : v.isExpressible = true) : Input.Denotes v.toJson v := by
  match v with
  | bound .null => exact .null
  | bound (.bool b) => exact .bool b
  | bound (.int n) => exact .integer n
  | bound (.float x) => exact .real x
  | bound (.text s) => exact .string s
  | raw sql => exact .raw sql

end Value

namespace Entries

/-- The members of an object for the entries. -/
def toJson (es : List (String × Value)) : List (String × Json) := es.map fun e => (e.1, e.2.toJson)

theorem denotes_toJson {es : List (String × Value)} (h : ∀ e ∈ es, e.2.isExpressible = true) :
    List.Forall₂ Input.CellDenotes (toJson es) es := by
  rw [toJson, List.forall₂_map_left_iff, List.forall₂_same]
  exact fun e he => ⟨rfl, Value.denotes_toJson (h e he)⟩

end Entries

namespace Row

def toJson (r : Row) : Json := .object (Entries.toJson r.entries)

theorem distinct_toJson (r : Row) : Json.Tree.Distinct r.toJson := by
  refine .object ?_ ?_
  · rw [Entries.toJson, Entries.names_map_snd]
    exact r.nodup
  · exact List.forall_mem_map.2 fun e _ => e.2.distinct_toJson

theorem denotes_toJson {r : Row} (h : ∀ v ∈ r.values, v.isExpressible = true) :
    Input.RowDenotes r.toJson r :=
  .object (Entries.denotes_toJson (List.forall_mem_map.1 h))

end Row

namespace UpdateEntry

def toJson : UpdateEntry → Json
  | inserted column => .string column
  | assign column v => .object (Entries.toJson [(column, v)])

theorem denotes_toJson {entry : UpdateEntry} (h : ∀ v ∈ entry.value?, v.isExpressible = true) :
    Input.ItemDenotes entry.toJson [entry] := by
  cases entry with
  | inserted column => exact .string column
  | assign column v =>
    have hv : v.isExpressible = true := h v rfl
    exact .object (Entries.denotes_toJson (by simpa))

end UpdateEntry

namespace Input

def rowsToJson (rows : List Row) : Json := .array (rows.map Row.toJson)

def updateToJson (update : UpdateSpec) : Json := .array (update.map UpdateEntry.toJson)

/-- A JSON text can give every value in the rows. -/
def RowsExpressible (rows : List Row) : Prop :=
  ∀ r ∈ rows, ∀ v ∈ r.values, v.isExpressible = true

def UpdateExpressible (update : UpdateSpec) : Prop :=
  ∀ v ∈ update.assignedValues, v.isExpressible = true

instance (rows : List Row) : Decidable (RowsExpressible rows) :=
  inferInstanceAs (Decidable (∀ r ∈ rows, ∀ v ∈ r.values, v.isExpressible = true))

instance (update : UpdateSpec) : Decidable (UpdateExpressible update) :=
  inferInstanceAs (Decidable (∀ v ∈ update.assignedValues, v.isExpressible = true))

theorem rows_toJson {rs : List Row} (h : RowsExpressible rs) : rows (rowsToJson rs) = .ok rs := by
  have hd : Json.Tree.Distinct (rowsToJson rs) :=
    .array (List.forall_mem_map.2 fun r _ => r.distinct_toJson)
  refine ((reads_rows hd).ok_iff rs).2 ⟨.inl rfl, ?_⟩
  rw [rowsToJson, Json.Tree.items, List.forall₂_map_left_iff, List.forall₂_same]
  exact fun r hr => Row.denotes_toJson (h r hr)

theorem update_toJson {u : UpdateSpec} (h : UpdateExpressible u) :
    update (updateToJson u) = .ok u := by
  refine ((reads_update _).ok_iff u).2 ⟨u.map ([·]), ⟨.inl rfl, ?_⟩, List.flatMap_singleton' u⟩
  rw [updateToJson, Json.Tree.items, List.forall₂_map_left_iff, List.forall₂_map_right_iff,
    List.forall₂_same]
  exact fun entry hentry => UpdateEntry.denotes_toJson fun v hv =>
    h v (List.mem_filterMap.2 ⟨entry, hentry, hv⟩)

/-- What a literal is read as is finite, and nothing denotes a blob. -/
theorem isExpressible_of_denotes {t : Json.Tree Json.Literal} {v : Value}
    (h : Denotes t.values v) : v.isExpressible = true := by
  generalize hjson : t.values = json at h
  cases h with
  | real x =>
    cases t with
    | number lit =>
      simp only [Json.Tree.values, Json.Tree.map, Json.Tree.number.injEq] at hjson
      exact Json.isFinite_of_number? (hjson ▸ lit.value_eq)
    | _ => simp [Json.Tree.values, Json.Tree.map] at hjson
  | _ => rfl

theorem isExpressible_of_cellDenotes {members : List (String × Json.Tree Json.Literal)}
    {es : List (String × Value)}
    (h : List.Forall₂ CellDenotes (members.map fun m => (m.1, m.2.map Json.Literal.value)) es) :
    ∀ e ∈ es, e.2.isExpressible = true := by
  rw [List.forall₂_map_left_iff] at h
  intro e he
  obtain ⟨m, -, hm⟩ := exists_forall₂_iff.1 ⟨members, h.flip⟩ e he
  exact isExpressible_of_denotes hm

theorem isExpressible_of_rowDenotes {t : Json.Tree Json.Literal} {r : Row}
    (h : RowDenotes t.values r) : ∀ v ∈ r.values, v.isExpressible = true := by
  cases t with
  | object members =>
    rw [Json.Tree.values, Json.Tree.map] at h
    cases h with
    | object h => exact List.forall_mem_map.2 (isExpressible_of_cellDenotes h)
  | _ =>
    rw [Json.Tree.values, Json.Tree.map] at h
    cases h

theorem updateExpressible_of_itemDenotes {t : Json.Tree Json.Literal} {u : UpdateSpec}
    (h : ItemDenotes t.values u) : UpdateExpressible u := by
  cases t with
  | string column =>
    rw [Json.Tree.values, Json.Tree.map] at h
    cases h
    exact fun v hv => nomatch hv
  | object members =>
    rw [Json.Tree.values, Json.Tree.map] at h
    cases h with
    | @object _ es h =>
      have hvalues : (assignAll es).assignedValues = es.map Prod.snd := by
        simp [UpdateSpec.assignedValues, assignAll, List.filterMap_map, Function.comp_def,
          UpdateEntry.value?]
      rw [UpdateExpressible, hvalues]
      exact List.forall_mem_map.2 (isExpressible_of_cellDenotes h)
  | _ =>
    rw [Json.Tree.values, Json.Tree.map] at h
    cases h

theorem exists_of_listDenotes {α : Type} {denotes : Json → α → Prop} {doc : Json.Tree Json.Literal}
    {as : List α} (h : ListDenotes denotes doc.values as) :
    ∀ a ∈ as, ∃ t : Json.Tree Json.Literal, denotes t.values a := by
  have hitems := h.2
  rw [Json.Tree.values, Json.Tree.items_map, List.forall₂_map_left_iff] at hitems
  exact exists_forall₂_iff.1 ⟨doc.items, hitems.flip⟩

theorem exists_of_parse_eq_ok {α : Type} {read : Json → Except InputError α} {text : String} {a : α}
    (h : (json text >>= read) = .ok a) :
    ∃ doc : Json.Tree Json.Literal, Json.Tree.Distinct doc.values ∧ read doc.values = .ok a := by
  cases hparse : Json.parse? text with
  | none =>
    rw [json, hparse] at h
    cases h
  | some doc =>
    rw [parse_of_eq_some hparse] at h
    have hread := hparse
    rw [Json.parse?_eq_values_read?, Option.map_eq_some_iff] at hread
    obtain ⟨literals, -, rfl⟩ := hread
    exact ⟨literals, Json.distinct_of_parseWith? hparse, h⟩

theorem rowsExpressible_of_parseRows {text : String} {rs : List Row} (h : parseRows text = .ok rs) :
    RowsExpressible rs := by
  obtain ⟨doc, hd, hdoc⟩ := exists_of_parse_eq_ok h
  intro r hr
  obtain ⟨t, ht⟩ := exists_of_listDenotes (((reads_rows hd).ok_iff rs).1 hdoc) r hr
  exact isExpressible_of_rowDenotes ht

theorem updateExpressible_of_parseUpdate {text : String} {u : UpdateSpec}
    (h : parseUpdate text = .ok u) : UpdateExpressible u := by
  obtain ⟨doc, -, hdoc⟩ := exists_of_parse_eq_ok h
  obtain ⟨parts, hparts, rfl⟩ := ((reads_update _).ok_iff u).1 hdoc
  intro v hv
  obtain ⟨entry, hentry, hvalue⟩ := List.mem_filterMap.1 hv
  obtain ⟨part, hpart, hmem⟩ := List.mem_flatten.1 hentry
  obtain ⟨t, ht⟩ := exists_of_listDenotes hparts part hpart
  exact updateExpressible_of_itemDenotes ht v (List.mem_filterMap.2 ⟨entry, hmem, hvalue⟩)

/-- What is `expressible` is read back from the document that `encode` makes of it, and `parse` gives
nothing else. `read` is the part of `parse` after the document. -/
structure RoundTrips {α : Type} (parse : String → Except InputError α)
    (read : Json → Except InputError α) (encode : α → Json) (expressible : α → Prop) : Prop where
  read_encode : ∀ a, expressible a → read (encode a) = .ok a
  parse_encode : ∀ a, expressible a → ∀ text, Json.parse? text = some (encode a) →
    parse text = .ok a
  expressible_of_parse : ∀ text a, parse text = .ok a → expressible a
  /-- Another text for a result of `parse` has the same result. -/
  parse_again : ∀ text a, parse text = .ok a → ∀ text', Json.parse? text' = some (encode a) →
    parse text' = .ok a

theorem RoundTrips.of_read_encode {α : Type} {read : Json → Except InputError α}
    {encode : α → Json} {expressible : α → Prop}
    (hread : ∀ a, expressible a → read (encode a) = .ok a)
    (hparse : ∀ text a, (json text >>= read) = .ok a → expressible a) :
    RoundTrips (fun text => json text >>= read) read encode expressible := by
  have hencode : ∀ a, expressible a → ∀ text, Json.parse? text = some (encode a) →
      (json text >>= read) = .ok a := fun a ha text htext =>
    (parse_of_eq_some htext).trans (hread a ha)
  exact ⟨hread, hencode, hparse, fun text a ha => hencode a (hparse text a ha)⟩

/-- Rows and update specs without blobs, and without numbers that are not finite, are read back from
their documents as they were, whatever their columns and their text look like. No text is read as any
other rows or update spec, and the columns of a row are distinct. -/
theorem documents_round_trip :
    RoundTrips parseRows rows rowsToJson RowsExpressible ∧
      RoundTrips parseUpdate update updateToJson UpdateExpressible ∧
      ∀ text rs, parseRows text = .ok rs → ∀ r ∈ rs, r.columns.Nodup :=
  ⟨.of_read_encode (fun _ => rows_toJson) fun _ _ => rowsExpressible_of_parseRows,
    .of_read_encode (fun _ => update_toJson) fun _ _ => updateExpressible_of_parseUpdate,
    fun _ _ _ r _ => r.nodup_columns⟩

/-- Columns and text that look like markers, and a column that is assigned twice. -/
theorem documents_round_trip_markers :
    parseRows "[\x7b\"$raw\": \x7b\"$raw\": \"now()\"\x7d, \"\": \"\x7b\\\"$raw\\\": 1\x7d\"\x7d]" =
        .ok [Row.ofList [("$raw", .raw "now()"), ("", .bound (.text "\x7b\"$raw\": 1\x7d"))]] ∧
      parseUpdate "[\x7b\"$raw\": \"now()\"\x7d, \"$raw\", \x7b\"$raw\": -5\x7d]" =
        .ok [.assign "$raw" (.bound (.text "now()")), .inserted "$raw",
          .assign "$raw" (.bound (.int (-5)))] := by
  obtain ⟨hrows, hupdate, -⟩ := documents_round_trip
  exact ⟨hrows.parse_encode _ (by decide) _ rfl, hupdate.parse_encode _ (by decide) _ rfl⟩

end Input

end BulkWrite
