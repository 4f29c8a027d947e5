import BulkWrite.Proofs.Names

/-!
Texts that can be read in one way only. `Readable print stops` says that item and rest are determined
by what is written, in front of any text that does not begin with one of `stops`.
-/
namespace BulkWrite

namespace Text

def Readable {α : Type} (print : α → List Char) (stops : List Char) : Prop :=
  ∀ ⦃x y r s⦄, Apart stops r → Apart stops s → print x ++ r = print y ++ s → x = y ∧ r = s

/-- What is read tells where the list ends: a separator goes on, and anything else stops. -/
theorem Readable.intercalate {α : Type} {print : α → List Char} {stops separator : List Char}
    (h : Readable print stops) (hsep : ∀ rest, Apart stops (separator ++ rest)) {xs ys : List α}
    {r s : List Char} (hx : xs ≠ []) (hy : ys ≠ []) (hr : Apart stops r) (hs : Apart stops s)
    (hr' : ¬ separator <+: r) (hs' : ¬ separator <+: s)
    (heq : separator.intercalate (xs.map print) ++ r =
      separator.intercalate (ys.map print) ++ s) : xs = ys ∧ r = s := by
  induction xs generalizing ys with
  | nil => exact absurd rfl hx
  | cons x xs ih =>
    obtain ⟨y, ys, rfl⟩ := List.exists_cons_of_ne_nil hy
    cases xs with
    | nil =>
      cases ys with
      | nil =>
        simp only [List.map_cons, List.map_nil, List.intercalate_singleton] at heq
        obtain ⟨rfl, hrest⟩ := h hr hs heq
        exact ⟨rfl, hrest⟩
      | cons y' ys =>
        simp only [List.map_cons, List.map_nil, List.intercalate_singleton,
          List.intercalate_cons_cons, List.append_assoc] at heq
        obtain ⟨-, rfl⟩ := h hr (hsep _) heq
        exact absurd (List.prefix_append _ _) hr'
    | cons x' xs =>
      cases ys with
      | nil =>
        simp only [List.map_cons, List.map_nil, List.intercalate_singleton,
          List.intercalate_cons_cons, List.append_assoc] at heq
        obtain ⟨-, rfl⟩ := h (hsep _) hs heq
        exact absurd (List.prefix_append _ _) hs'
      | cons y' ys =>
        simp only [List.map_cons, List.intercalate_cons_cons, List.append_assoc] at heq
        obtain ⟨rfl, htail⟩ := h (hsep _) (hsep _) heq
        have htail := List.append_cancel_left htail
        obtain ⟨hxs, hrest⟩ := ih (List.cons_ne_nil x' xs) (List.cons_ne_nil y' ys) htail
        exact ⟨by rw [hxs], hrest⟩

end Text

open Text (Apart Readable)

namespace Dialect

variable (d : Dialect)

theorem readable_quote : Readable (fun name => (d.quote name).toList) d.nameStops :=
  fun a b _ _ hr hs heq => (d.recovers_quote a).inj (d.recovers_quote b) hr hs heq

theorem head?_quote (name : String) : (d.quote name).toList.head? = some d.quotes.opening := by
  obtain ⟨segment, segments, hsegments⟩ :=
    List.exists_cons_of_ne_nil (List.splitOn_ne_nil '.' name.toList)
  rw [toList_quote, Quotes.encode, hsegments]
  cases segments <;> simp [Quotes.wrap, Text.quoted]

theorem columnList_append_inj {columns columns' : List String} {r s : List Char}
    (hne : columns ≠ []) (hne' : columns' ≠ []) (hr : Apart (',' :: d.nameStops) r)
    (hs : Apart (',' :: d.nameStops) s)
    (heq : (d.columnList columns).toList ++ r = (d.columnList columns').toList ++ s) :
    columns = columns' ∧ r = s :=
  (d.recovers_columnList hne).inj (d.recovers_columnList hne') hr hs heq

end Dialect

end BulkWrite
