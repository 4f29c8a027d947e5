import Mathlib.Data.List.TakeWhile
import BulkWrite.Proofs.Places

/-!
What becomes of the integer literals of rows and assignments. One in the signed range of 64 bits is
kept exactly. One beyond it is refused only if it fits in 64 bits without a sign, and rounded to a
floating-point number otherwise (`integer_literal_outcome`).
-/
namespace BulkWrite

namespace Json

/-- An integer literal: digits after an optional minus sign. -/
structure IntegerLiteral where
  negative : Bool
  digits : List Char
  isDigit : ∀ c ∈ digits, c.isDigit = true

namespace IntegerLiteral

def characters (l : IntegerLiteral) : List Char :=
  if l.negative then '-' :: l.digits else l.digits

def value (l : IntegerLiteral) : Int :=
  if l.negative then -(NumberLiteral.digitsValue l.digits : Int)
  else NumberLiteral.digitsValue l.digits

def IsNegativeZero (l : IntegerLiteral) : Prop := l.negative = true ∧ l.value = 0

def number (l : IntegerLiteral) : NumberLiteral := ⟨l.negative, l.digits, [], none⟩

end IntegerLiteral

namespace NumberLiteral

theorem whole?_of_isDigit {cs : List Char} (h : ∀ c ∈ cs, c.isDigit = true)
    {r : List Char × List Char} (hr : whole? cs = some r) : r = (cs, []) := by
  have htake : cs.takeWhile Char.isDigit = cs := List.takeWhile_eq_self_iff.2 h
  have hdrop : cs.dropWhile Char.isDigit = [] := List.dropWhile_eq_nil_iff.2 h
  unfold whole? digits? at hr
  rw [htake, hdrop] at hr
  split at hr <;> simp_all

theorem unsigned?_of_isDigit {negative : Bool} {cs : List Char} (h : ∀ c ∈ cs, c.isDigit = true)
    {l : NumberLiteral} (hl : unsigned? negative cs = some l) : l = ⟨negative, cs, [], none⟩ := by
  unfold unsigned? at hl
  obtain ⟨r, hr, hl⟩ := Option.bind_eq_some_iff.1 hl
  obtain rfl := whole?_of_isDigit h hr
  exact (Option.some.inj hl).symm

theorem ofChars?_characters {l : IntegerLiteral} {k : NumberLiteral}
    (h : ofChars? l.characters = some k) : k = l.number := by
  obtain ⟨negative, digits, hd⟩ := l
  cases negative with
  | true => exact unsigned?_of_isDigit hd h
  | false =>
    have hsign : ofChars? digits = unsigned? false digits := by
      unfold ofChars?
      split
      · next cs => exact absurd (hd '-' List.mem_cons_self) (by decide)
      · rfl
    exact unsigned?_of_isDigit hd (hsign ▸ h)

/-- An integer literal has an integer value exactly if the value fits in 64 bits. -/
theorem integer?_number {l : IntegerLiteral} (hz : ¬ l.IsNegativeZero) : l.number.integer? =
    if Int64.minValue.toInt ≤ l.value ∧ l.value < UInt64.size then some l.value else none := by
  have hsize : UInt64.size = 18446744073709551616 := rfl
  obtain ⟨negative, digits, hd⟩ := l
  cases negative with
  | true =>
    have hn : 0 < digitsValue digits := by
      simp only [IntegerLiteral.IsNegativeZero, IntegerLiteral.value, true_and, if_true] at hz
      omega
    simp only [integer?, IntegerLiteral.number, IntegerLiteral.value, if_true, hn, true_and]
    exact if_congr (by omega) rfl rfl
  | false =>
    have hmin : Int64.minValue.toInt = -9223372036854775808 := rfl
    simp only [integer?, IntegerLiteral.number, IntegerLiteral.value, Bool.false_eq_true, if_false]
    exact if_congr (by omega) rfl rfl

theorem le_and_lt_of_integer? {l : NumberLiteral} {v : Int} (h : l.integer? = some v) :
    Int64.minValue.toInt ≤ v ∧ v < UInt64.size := by
  have hmin : Int64.minValue.toInt = -9223372036854775808 := rfl
  have hsize : UInt64.size = 18446744073709551616 := rfl
  simp only [integer?] at h
  split_ifs at h <;>
  · obtain rfl := Option.some.inj h
    omega

end NumberLiteral

theorem number?_characters {l : IntegerLiteral} (hz : ¬ l.IsNegativeZero) {n : Number}
    (h : number? l.characters = some n) :
    if Int64.minValue.toInt ≤ l.value ∧ l.value < UInt64.size then n = .integer l.value
    else ∃ x, n = .real x := by
  obtain ⟨k, hk, hn⟩ := Option.bind_eq_some_iff.1 h
  obtain rfl := NumberLiteral.ofChars?_characters hk
  have hint : l.number.isInteger = true := rfl
  rw [NumberLiteral.value?, if_pos hint, NumberLiteral.integer?_number hz] at hn
  split_ifs at hn ⊢ with hv
  · exact (Option.some.inj hn).symm
  · obtain ⟨x, -, hx⟩ := Option.map_eq_some_iff.1 hn
    exact ⟨x, hx.symm⟩

theorem Literal.le_and_lt_of_integer {lit : Literal} {v : Int} (h : lit.value = .integer v) :
    Int64.minValue.toInt ≤ v ∧ v < UInt64.size := by
  obtain ⟨k, -, hk⟩ := Option.bind_eq_some_iff.1 lit.value_eq
  rw [h, NumberLiteral.value?] at hk
  split at hk
  · next n hn =>
    obtain rfl := Number.integer.inj (Option.some.inj hk)
    split_ifs at hn
    exact NumberLiteral.le_and_lt_of_integer? hn
  · obtain ⟨x, -, hx⟩ := Option.map_eq_some_iff.1 hk
    cases hx

end Json

namespace Input

/-- What becomes of the integer literal `v` at a place. `result` is what its document gives and
`earlier` what stands before the place, and `holds` tells what a result has there. -/
structure IntegerOutcome {α β : Type} (v : Int) (result : Except InputError α)
    (earlier : Except InputError β) (holds : α → Value → Prop) : Prop where
  kept : Int64.minValue.toInt ≤ v → v ≤ Int64.maxValue.toInt → ∀ a, result = .ok a →
    ∃ n : Int64, n.toInt = v ∧ holds a (.bound (.int n))
  refused : v < Int64.minValue.toInt ∨ Int64.maxValue.toInt < v → ∀ b, earlier = .ok b →
    (result = .error (.integerOutOfRange v) ↔ 0 ≤ v ∧ v < UInt64.size)
  rounded : ∀ a, result = .ok a →
    ((∃ x, holds a (.bound (.float x))) ↔ v < Int64.minValue.toInt ∨ UInt64.size ≤ v)

/-- The range of an integer literal decides what it is read as. -/
theorem value_integerLiteral {lit : Json.Literal} {l : Json.IntegerLiteral}
    (hl : lit.characters = l.characters) (hz : ¬ l.IsNegativeZero) :
    (Int64.minValue.toInt ≤ l.value ∧ l.value ≤ Int64.maxValue.toInt ∧
      value (.number lit.value) = .ok (.bound (.int (.ofInt l.value)))) ∨
    (Int64.maxValue.toInt < l.value ∧ l.value < UInt64.size ∧
      value (.number lit.value) = .error (.integerOutOfRange l.value)) ∨
    ((l.value < Int64.minValue.toInt ∨ UInt64.size ≤ l.value) ∧
      ∃ x, value (.number lit.value) = .ok (.bound (.float x))) := by
  have hn := Json.number?_characters hz (hl ▸ lit.value_eq)
  split_ifs at hn with hv
  · rw [hn]
    by_cases hmax : l.value ≤ Int64.maxValue.toInt
    · exact .inl ⟨hv.1, hmax, if_pos ⟨hv.1, hmax⟩⟩
    · exact .inr (.inl ⟨Int.not_le.1 hmax, hv.2, if_neg fun h => hmax h.2⟩)
  · obtain ⟨x, hx⟩ := hn
    rw [hx]
    exact .inr (.inr ⟨by omega, x, rfl⟩)

theorem eq_and_lt_of_value_eq_error {json : Json} {v : Int}
    (h : value json = .error (.integerOutOfRange v)) :
    json = .number (.integer v) ∧ (v < Int64.minValue.toInt ∨ Int64.maxValue.toInt < v) := by
  unfold value at h
  split at h
  case h_3 n =>
    unfold integer at h
    split_ifs at h with hn
    obtain rfl := InputError.integerOutOfRange.inj (Except.error.inj h)
    exact ⟨rfl, by omega⟩
  case h_6 =>
    split_ifs at h
    cases h
  all_goals cases h

theorem bounds_of_value_eq_error {t : Json.Tree Json.Literal} {v : Int}
    (h : value t.values = .error (.integerOutOfRange v)) :
    0 ≤ v ∧ v < UInt64.size := by
  obtain ⟨ht, hv⟩ := eq_and_lt_of_value_eq_error h
  cases t with
  | number lit =>
    simp only [Json.Tree.values, Json.Tree.map, Json.Tree.number.injEq] at ht
    have := lit.le_and_lt_of_integer ht
    have hmax : Int64.maxValue.toInt = 9223372036854775807 := rfl
    omega
  | _ => simp [Json.Tree.values, Json.Tree.map] at ht

theorem bounds_of_cells_eq_error {members : List (String × Json.Tree Json.Literal)} {v : Int}
    (h : cells (members.map fun m => (m.1, m.2.map Json.Literal.value)) =
      .error (.integerOutOfRange v)) : 0 ≤ v ∧ v < UInt64.size := by
  rw [cells_eq] at h
  obtain ⟨m', hm', he⟩ := exists_mem_of_mapM_eq_error h
  obtain ⟨m, -, rfl⟩ := List.mem_map.1 hm'
  exact bounds_of_value_eq_error (map_eq_error_iff.1 he)

/-- `f` reads an item: an object by its cells, and anything else is of the wrong kind. -/
theorem bounds_of_items_eq_error {α : Type} {f : Json → Except InputError α}
    {g : List (String × Value) → α}
    (hobject : ∀ members, f (.object members) = (cells members).map g)
    (hother : ∀ json v, f json = .error (.integerOutOfRange v) → json.kind = .object)
    {doc : Json.Tree Json.Literal} {v : Int}
    (h : doc.values.items.mapM f = .error (.integerOutOfRange v)) :
    0 ≤ v ∧ v < UInt64.size := by
  obtain ⟨t', ht', he⟩ := exists_mem_of_mapM_eq_error h
  rw [Json.Tree.values, Json.Tree.items_map] at ht'
  obtain ⟨t, -, rfl⟩ := List.mem_map.1 ht'
  have hkind := hother _ v he
  cases t with
  | object members =>
    rw [Json.Tree.map, hobject, map_eq_error_iff] at he
    exact bounds_of_cells_eq_error he
  | _ => simp [Json.Tree.map, Json.Tree.kind] at hkind

theorem kind_of_row_eq_error (json : Json) (v : Int)
    (h : row json = .error (.integerOutOfRange v)) : json.kind = .object := by
  cases json with
  | object members => rfl
  | _ => cases h

theorem kind_of_updateItem_eq_error (json : Json) (v : Int)
    (h : updateItem json = .error (.integerOutOfRange v)) : json.kind = .object := by
  cases json with
  | object members => rfl
  | _ => cases h

theorem DecidedAt.integerOutcome {α β : Type} {result : Except InputError α}
    {earlier : Except InputError β} {lit : Json.Literal} {l : Json.IntegerLiteral}
    {holds : α → Value → Prop} (h : DecidedAt result earlier (value (.number lit.value)) holds)
    (hl : lit.characters = l.characters) (hz : ¬ l.IsNegativeZero)
    (hbounds : result = .error (.integerOutOfRange l.value) → 0 ≤ l.value ∧ l.value < UInt64.size) :
    IntegerOutcome l.value result earlier holds := by
  have hmax : Int64.maxValue.toInt = 9223372036854775807 := rfl
  have hmin : Int64.minValue.toInt = -9223372036854775808 := rfl
  have hsize : UInt64.size = 18446744073709551616 := rfl
  have hcases := value_integerLiteral hl hz
  refine ⟨fun hlow hhigh a ha => ?_, fun hout b hb => ⟨hbounds, fun hr => ?_⟩, fun a ha => ?_⟩
  · obtain ⟨x, hx, hholds⟩ := h.of_ok a ha
    obtain ⟨-, -, hv⟩ | ⟨hv, -⟩ | ⟨hv, -⟩ := hcases
    · obtain rfl := Except.ok.inj (hx.symm.trans hv)
      exact ⟨.ofInt l.value, Int64.toInt_ofInt_of_le (by omega) (by omega), (hholds _).2 rfl⟩
    · omega
    · omega
  · obtain ⟨_, _, -⟩ | ⟨-, -, hv⟩ | ⟨hv, -⟩ := hcases
    · omega
    · exact h.of_error b _ hb hv
    · omega
  · obtain ⟨x, hx, hholds⟩ := h.of_ok a ha
    obtain ⟨hlow, hhigh, hv⟩ | ⟨-, -, hv⟩ | ⟨hout, y, hv⟩ := hcases
    · obtain rfl := Except.ok.inj (hx.symm.trans hv)
      refine ⟨fun ⟨y, hy⟩ => ?_, fun h => by omega⟩
      simpa using (hholds _).1 hy
    · rw [hv] at hx
      cases hx
    · obtain rfl := Except.ok.inj (hx.symm.trans hv)
      exact ⟨fun _ => hout, fun _ => ⟨y, (hholds _).2 rfl⟩⟩

/-- An integer literal that is a value in a text of rows, or of assignments. In the signed range it
is kept exactly. Beyond it, after values that are all accepted, it is refused exactly if it fits in
64 bits without a sign. It becomes a floating-point number exactly if it does not fit in 64 bits. -/
theorem integer_literal_outcome {text : String} {doc : Json.Tree Json.Literal}
    (hdoc : Json.read? text = some doc) (cell : Json.Cell doc) {lit : Json.Literal}
    (hcell : cell.value = .number lit) {l : Json.IntegerLiteral}
    (hl : lit.characters = l.characters) (hz : ¬ l.IsNegativeZero) :
    IntegerOutcome l.value (parseRows text) (rows cell.earlier.values)
        (RowsHold cell.before.length cell.column) ∧
      IntegerOutcome l.value (parseUpdate text) (update cell.earlier.values)
        (UpdateHolds (update cell.earlier.values) cell.column) := by
  have hparse : Json.parse? text = some doc.values := by
    rw [Json.parse?_eq_values_read?, hdoc]
    rfl
  have hjson : json text = .ok doc.values := by
    rw [json, hparse]
  have hrows : parseRows text = rows doc.values := by
    rw [parseRows, hjson]
    rfl
  have hupdate : parseUpdate text = update doc.values := by
    rw [parseUpdate, hjson]
    rfl
  have hdistinct : Json.Tree.Distinct doc.values :=
    Json.distinct_of_parseWith? hparse
  have hvalue : (cell.map Json.Literal.value).value = .number lit.value := by
    simp only [Json.Cell.map, hcell, Json.Tree.map]
  have hlength : (cell.map Json.Literal.value).before.length = cell.before.length :=
    List.length_map _
  have hr := (cell.map Json.Literal.value).rows_decided hdistinct
  have hu := (cell.map Json.Literal.value).update_decided
  rw [hvalue, Json.Cell.earlier_map, hlength] at hr
  rw [hvalue, Json.Cell.earlier_map] at hu
  rw [hrows, hupdate]
  refine ⟨hr.integerOutcome hl hz fun h => ?_, hu.integerOutcome hl hz fun h => ?_⟩
  · rw [(cell.map Json.Literal.value).rows_eq] at h
    exact bounds_of_items_eq_error row_object kind_of_row_eq_error h
  · rw [(cell.map Json.Literal.value).update_eq, map_eq_error_iff] at h
    exact bounds_of_items_eq_error updateItem_object kind_of_updateItem_eq_error h

def secondTooLarge : Json.Tree Json.Literal :=
  .array [.object [("id", .number ⟨"-5".toList, .integer (-5), rfl⟩)],
    .object [("id",
      .number ⟨"9223372036854775808".toList, .integer 9223372036854775808, rfl⟩)]]

/-- The first row is accepted, so the second one is refused. -/
theorem integer_literal_outcome_second_row :
    parseRows "[\x7b\"id\": -5\x7d, \x7b\"id\": 9223372036854775808\x7d]" =
      .error (.integerOutOfRange 9223372036854775808) := by
  have hdoc : Json.read? "[\x7b\"id\": -5\x7d, \x7b\"id\": 9223372036854775808\x7d]" =
      some secondTooLarge := rfl
  let cell : Json.Cell secondTooLarge :=
    ⟨[.object [("id", .number ⟨"-5".toList, .integer (-5), rfl⟩)]], [], "id",
      .number ⟨"9223372036854775808".toList, .integer 9223372036854775808, rfl⟩, [], [], rfl⟩
  let l : Json.IntegerLiteral := ⟨false, "9223372036854775808".toList, List.all_eq_true.1 rfl⟩
  have hl : "9223372036854775808".toList = l.characters := rfl
  have hvalue : l.value = 9223372036854775808 := by decide +kernel
  obtain ⟨houtcome, -⟩ := integer_literal_outcome hdoc cell rfl hl fun hz => nomatch hz.1
  rw [hvalue] at houtcome
  have hvalues : cell.earlier.values =
      .array [.object [("id", .number (.integer (-5)))], .object []] := by
    simp [cell, Json.Cell.earlier, Json.Tree.values, Json.Tree.map]
  have hearlier : rows cell.earlier.values =
      .ok [Row.ofList [("id", .bound (.int (-5)))], .empty] := by
    rw [hvalues]
    decide
  exact (houtcome.refused (by decide) _ hearlier).2 (by decide)

set_option maxRecDepth 20000 in
/-- One less than the least signed integer becomes the floating-point number of the least one. -/
theorem integer_below_range_rounded :
    parseRows "\x7b\"id\": -9223372036854775809\x7d" =
      .ok [Row.ofList [("id", .bound (.float (-9223372036854775808.0)))]] := by
  decide +kernel

end Input

end BulkWrite
