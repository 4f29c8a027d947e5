/-!
White space as Unicode defines it: the characters with the property `White_Space`. A text is trimmed
to what is left of it without the white space at its ends, however much there is (`trim_append`).
-/
namespace BulkWrite.Text

/-- The first and last code point of each run of blank characters. -/
def blankRanges : List (Nat × Nat) :=
  [(0x9, 0xD), (0x20, 0x20), (0x85, 0x85), (0xA0, 0xA0), (0x1680, 0x1680), (0x2000, 0x200A),
    (0x2028, 0x2029), (0x202F, 0x202F), (0x205F, 0x205F), (0x3000, 0x3000)]

def isBlank (c : Char) : Bool :=
  blankRanges.any fun range => decide (range.1 ≤ c.toNat) && decide (c.toNat ≤ range.2)

def Blank (cs : List Char) : Prop := ∀ c ∈ cs, isBlank c = true

instance (cs : List Char) : Decidable (Blank cs) :=
  decidable_of_iff (cs.all isBlank = true) List.all_eq_true

def trim (cs : List Char) : List Char :=
  ((cs.dropWhile isBlank).reverse.dropWhile isBlank).reverse

theorem trim_append {u v : List Char} (hu : Blank u) (hv : Blank v) (cs : List Char) :
    trim (u ++ cs ++ v) = trim cs := by
  have hback : ∀ ds : List Char,
      (ds ++ v).reverse.dropWhile isBlank = ds.reverse.dropWhile isBlank := by
    intro ds
    rw [List.reverse_append]
    exact List.dropWhile_append_of_pos fun c hc => hv c (List.mem_reverse.1 hc)
  rw [trim, trim, List.append_assoc, List.dropWhile_append_of_pos hu, List.dropWhile_append]
  split
  · next hblank =>
    have hv' : v.dropWhile isBlank = [] := by
      rw [← List.append_nil v, List.dropWhile_append_of_pos hv, List.dropWhile_nil]
    rw [List.isEmpty_iff.1 hblank, hv']
  · rw [hback]

theorem exists_eq_append_trim (cs : List Char) :
    ∃ u v, Blank u ∧ Blank v ∧ cs = u ++ trim cs ++ v := by
  have hrun : ∀ ds : List Char, Blank (ds.takeWhile isBlank) := fun ds =>
    List.all_eq_true.1 List.all_takeWhile
  let back := (cs.dropWhile isBlank).reverse
  refine ⟨cs.takeWhile isBlank, (back.takeWhile isBlank).reverse, hrun cs, ?_, ?_⟩
  · exact fun c hc => hrun back c (List.mem_reverse.1 hc)
  · rw [trim, List.append_assoc, ← List.reverse_append, List.takeWhile_append_dropWhile,
      List.reverse_reverse, List.takeWhile_append_dropWhile]

theorem trim_map {f : Char → Char} (h : ∀ c, isBlank (f c) = isBlank c) (cs : List Char) :
    trim (cs.map f) = (trim cs).map f := by
  have hcomp : isBlank ∘ f = isBlank := funext h
  simp only [trim, List.dropWhile_map, hcomp, ← List.map_reverse]

theorem trim_eq_self {cs : List Char} (h : ∀ c ∈ cs, isBlank c = false) : trim cs = cs := by
  have hdrop : ∀ ds : List Char, (∀ c ∈ ds, isBlank c = false) → ds.dropWhile isBlank = ds := by
    intro ds hds
    cases ds with
    | nil => rfl
    | cons c ds => exact List.dropWhile_cons_of_neg (by simp [hds c List.mem_cons_self])
  have hback := hdrop cs.reverse fun c hc => h c (List.mem_reverse.1 hc)
  rw [trim, hdrop cs h, hback, List.reverse_reverse]

end BulkWrite.Text
