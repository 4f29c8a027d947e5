/-!
Replacing a part of a text by another text.
-/
namespace BulkWrite.Text

/-- Puts `replacement` in the place of the first occurrence of `pattern`, which is not empty. -/
def replaceFirst (pattern replacement : List Char) : List Char → List Char
  | [] => []
  | c :: cs =>
    if pattern.isPrefixOf (c :: cs) then replacement ++ (c :: cs).drop pattern.length
    else c :: replaceFirst pattern replacement cs

theorem replaceFirst_append {pattern : List Char} (h : pattern ≠ [])
    (replacement rest : List Char) :
    replaceFirst pattern replacement (pattern ++ rest) = replacement ++ rest := by
  obtain ⟨c, cs, rfl⟩ := List.exists_cons_of_ne_nil h
  simp [replaceFirst]

end BulkWrite.Text
