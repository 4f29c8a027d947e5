/-!
Pieces of SQL under construction: a text, and a count of the slots that it shows. A slot stands for
one bound value; a question mark that comes with a text is not a slot. Joining concatenates texts and
adds up slots (`text_join`, `placeholders_join`).
-/
namespace BulkWrite

@[ext] structure Fragment where
  text : String
  /-- How many slots were written into the text. -/
  placeholders : Nat
  deriving DecidableEq, Inhabited

namespace Fragment

def empty : Fragment := ⟨"", 0⟩

def ofText (s : String) : Fragment := ⟨s, 0⟩

def slot (mark : String) : Fragment := ⟨mark, 1⟩

instance : Append Fragment := ⟨fun f g => ⟨f.text ++ g.text, f.placeholders + g.placeholders⟩⟩

def push (f : Fragment) (s : String) : Fragment := { f with text := f.text ++ s }

/-- Puts the next part and its index at the end; every part but the first comes after a separator. -/
def joinNext (separator : String) (joined : Fragment) (part : Fragment × Nat) : Fragment :=
  (if part.2 > 0 then joined.push separator else joined) ++ part.1

/-- The fragments one after the other, with `separator` between neighbours. -/
def join (separator : String) (parts : List Fragment) : Fragment :=
  parts.zipIdx.foldl (joinNext separator) empty

def parenthesized (f : Fragment) : Fragment := ⟨"(" ++ f.text ++ ")", f.placeholders⟩

@[simp] theorem text_empty : empty.text = "" := rfl

@[simp] theorem text_ofText (s : String) : (ofText s).text = s := rfl

@[simp] theorem text_slot (mark : String) : (slot mark).text = mark := rfl

@[simp] theorem text_append (f g : Fragment) : (f ++ g).text = f.text ++ g.text := rfl

@[simp] theorem text_push (f : Fragment) (s : String) : (f.push s).text = f.text ++ s := rfl

@[simp] theorem text_parenthesized (f : Fragment) :
    f.parenthesized.text = "(" ++ f.text ++ ")" := rfl

@[simp] theorem placeholders_empty : empty.placeholders = 0 := rfl

@[simp] theorem placeholders_ofText (s : String) : (ofText s).placeholders = 0 := rfl

@[simp] theorem placeholders_slot (mark : String) : (slot mark).placeholders = 1 := rfl

@[simp] theorem placeholders_append (f g : Fragment) :
    (f ++ g).placeholders = f.placeholders + g.placeholders := rfl

@[simp] theorem placeholders_push (f : Fragment) (s : String) :
    (f.push s).placeholders = f.placeholders := rfl

@[simp] theorem placeholders_parenthesized (f : Fragment) :
    f.parenthesized.placeholders = f.placeholders := rfl

theorem append_assoc (f g h : Fragment) : f ++ g ++ h = f ++ (g ++ h) := by
  apply Fragment.ext
  · simp only [text_append, String.append_assoc]
  · simp only [placeholders_append, Nat.add_assoc]

@[simp] theorem empty_append (f : Fragment) : empty ++ f = f := by
  apply Fragment.ext <;> simp

theorem push_eq (f : Fragment) (s : String) : f.push s = f ++ ofText s := rfl

theorem parenthesized_eq (f : Fragment) : f.parenthesized = ofText "(" ++ f ++ ofText ")" := by
  apply Fragment.ext
  · rfl
  · simp

@[simp] theorem join_nil (separator : String) : join separator [] = empty := rfl

theorem foldl_joinNext_succ (separator : String) (parts : List Fragment) (joined : Fragment)
    (n : Nat) :
    (parts.zipIdx (n + 1)).foldl (joinNext separator) joined =
      parts.foldl (fun joined g => joined.push separator ++ g) joined := by
  induction parts generalizing joined n with
  | nil => rfl
  | cons g parts ih => rw [List.zipIdx_cons, List.foldl_cons, List.foldl_cons, ih]; rfl

theorem join_cons (separator : String) (f : Fragment) (parts : List Fragment) :
    join separator (f :: parts) = parts.foldl (fun joined g => joined.push separator ++ g) f := by
  have hfirst : joinNext separator empty (f, 0) = f := empty_append f
  rw [join, List.zipIdx_cons, List.foldl_cons, foldl_joinNext_succ, hfirst]

@[simp] theorem join_singleton (separator : String) (f : Fragment) : join separator [f] = f :=
  join_cons separator f []

theorem foldl_join_append (separator : String) (f g : Fragment) (parts : List Fragment) :
    parts.foldl (fun joined g => joined.push separator ++ g) (f ++ g) =
      f ++ parts.foldl (fun joined g => joined.push separator ++ g) g := by
  induction parts generalizing g with
  | nil => rfl
  | cons h parts ih =>
    have hpush : (f ++ g).push separator ++ h = f ++ (g.push separator ++ h) := by
      rw [push_eq, push_eq, append_assoc f g, append_assoc f]
    rw [List.foldl_cons, List.foldl_cons, hpush, ih]

theorem join_cons_cons (separator : String) (f g : Fragment) (parts : List Fragment) :
    join separator (f :: g :: parts) = f ++ ofText separator ++ join separator (g :: parts) := by
  rw [join_cons, join_cons, List.foldl_cons, foldl_join_append, push_eq]

theorem join_append (separator : String) {xs ys : List Fragment} (hx : xs ≠ []) (hy : ys ≠ []) :
    join separator (xs ++ ys) = (join separator xs).push separator ++ join separator ys := by
  induction xs with
  | nil => exact absurd rfl hx
  | cons f xs ih =>
    cases xs with
    | nil =>
      obtain ⟨g, ys, rfl⟩ := List.exists_cons_of_ne_nil hy
      rw [List.singleton_append, join_cons_cons, join_singleton, push_eq]
    | cons g xs =>
      have hrest := ih (List.cons_ne_nil g xs)
      rw [List.cons_append] at hrest
      rw [List.cons_append, List.cons_append, join_cons_cons, hrest, join_cons_cons]
      simp only [push_eq, append_assoc]

@[simp] theorem text_join (separator : String) (parts : List Fragment) :
    (join separator parts).text = separator.intercalate (parts.map text) := by
  induction parts with
  | nil => rfl
  | cons f parts ih =>
    cases parts with
    | nil => simp
    | cons g parts =>
      rw [join_cons_cons, text_append, text_append, text_ofText, ih]
      simp [String.intercalate_cons_cons]

@[simp] theorem placeholders_join (separator : String) (parts : List Fragment) :
    (join separator parts).placeholders = parts.foldr (fun f n => f.placeholders + n) 0 := by
  induction parts with
  | nil => rfl
  | cons f parts ih =>
    cases parts with
    | nil => simp
    | cons g parts =>
      rw [join_cons_cons, placeholders_append, placeholders_append, placeholders_ofText, ih]
      simp

end Fragment

end BulkWrite
