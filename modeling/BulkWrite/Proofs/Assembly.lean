import BulkWrite.Fragment
import Mathlib.Data.List.Basic

/-!
Whatever is put together from fragments, in any nesting: its text is that of its parts in order, with
what was written between and around them, and it has the slots of its parts and no others. Main
statement: `fragment_conserves`.
-/
namespace BulkWrite

inductive Assembly where
  | empty
  | ofText (s : String)
  | slot (mark : String)
  | push (a : Assembly) (s : String)
  | append (a b : Assembly)
  | join (separator : String) (parts : List Assembly)
  | parenthesized (a : Assembly)
  deriving Inhabited

namespace Assembly

def fragment : Assembly → Fragment
  | empty => .empty
  | ofText s => .ofText s
  | slot mark => .slot mark
  | push a s => a.fragment.push s
  | append a b => a.fragment ++ b.fragment
  | join separator parts => .join separator (parts.map fragment)
  | parenthesized a => a.fragment.parenthesized

/-- All texts of an assembly in the order in which they are read. A separator stands between
neighbours, whether or not they have any text. -/
def texts : Assembly → List String
  | empty => []
  | ofText s => [s]
  | slot mark => [mark]
  | push a s => a.texts ++ [s]
  | append a b => a.texts ++ b.texts
  | join separator parts => [separator].intercalate (parts.map texts)
  | parenthesized a => ["("] ++ a.texts ++ [")"]

def marks : Assembly → List String
  | slot mark => [mark]
  | push a _ | parenthesized a => a.marks
  | append a b => a.marks ++ b.marks
  | join _ parts => parts.flatMap marks
  | empty | ofText _ => []

/-- What is left of an assembly without its texts. -/
def shape : Assembly → Assembly
  | empty => empty
  | ofText _ => ofText ""
  | slot _ => slot ""
  | push a _ => push a.shape ""
  | append a b => append a.shape b.shape
  | join _ parts => join "" (parts.map shape)
  | parenthesized a => parenthesized a.shape

@[elab_as_elim, induction_eliminator]
theorem induct {motive : Assembly → Prop} (empty : motive empty) (ofText : ∀ s, motive (ofText s))
    (slot : ∀ mark, motive (slot mark)) (push : ∀ a s, motive a → motive (push a s))
    (append : ∀ a b, motive a → motive b → motive (append a b))
    (join : ∀ separator parts, (∀ a ∈ parts, motive a) → motive (join separator parts))
    (parenthesized : ∀ a, motive a → motive (parenthesized a)) (a : Assembly) : motive a :=
  texts.induct motive empty ofText slot push append join parenthesized a

theorem join_intercalate (separator : String) (parts : List (List String)) :
    String.join ([separator].intercalate parts) = separator.intercalate (parts.map String.join) := by
  induction parts with
  | nil => simp
  | cons p parts ih =>
    cases parts with
    | nil => simp
    | cons q parts => simp [List.intercalate_cons_cons, ih, String.append_assoc]

theorem text_fragment (a : Assembly) : a.fragment.text = String.join a.texts := by
  induction a with
  | empty | ofText | slot => simp [fragment, texts]
  | push a s ih => simp [fragment, texts, ih]
  | append a b iha ihb => simp [fragment, texts, iha, ihb]
  | join separator parts ih =>
    have hparts : (parts.map fragment).map Fragment.text = (parts.map texts).map String.join := by
      rw [List.map_map, List.map_map]
      exact List.map_congr_left ih
    rw [fragment, texts, Fragment.text_join, hparts, join_intercalate]
  | parenthesized a ih => simp [fragment, texts, ih, String.append_assoc]

theorem placeholders_fragment (a : Assembly) : a.fragment.placeholders = a.marks.length := by
  induction a with
  | empty | ofText | slot => simp [fragment, marks]
  | push a s ih => simp [fragment, marks, ih]
  | append a b iha ihb => simp [fragment, marks, iha, ihb]
  | join separator parts ih =>
    rw [fragment, marks, Fragment.placeholders_join]
    induction parts with
    | nil => rfl
    | cons a parts ihparts =>
      have ha := ih a List.mem_cons_self
      have hparts := ihparts fun b hb => ih b (List.mem_cons_of_mem a hb)
      rw [List.map_cons, List.foldr_cons, hparts, ha, List.flatMap_cons, List.length_append]
  | parenthesized a ih => simp [fragment, marks, ih]

theorem marks_shape (a : Assembly) : a.shape.marks = a.marks.map fun _ => "" := by
  induction a with
  | empty | ofText | slot => simp [shape, marks]
  | push a s ih => simp [shape, marks, ih]
  | append a b iha ihb => simp [shape, marks, iha, ihb]
  | join separator parts ih =>
    simp only [shape, marks, List.flatMap_map, List.map_flatMap]
    exact List.flatMap_congr ih
  | parenthesized a ih => simp [shape, marks, ih]

theorem placeholders_eq_of_shape_eq {a b : Assembly} (h : b.shape = a.shape) :
    b.fragment.placeholders = a.fragment.placeholders := by
  have hmarks := congrArg (fun c => c.marks.length) h
  simp only [marks_shape, List.length_map] at hmarks
  rw [placeholders_fragment, placeholders_fragment, hmarks]

/-- The text is all texts in order, and there are as many slots as leaves that are slots; which texts
there are, and whether they have question marks, does not matter to that number. Lists of parts that
are joined one after the other have the separator between them. -/
theorem fragment_conserves (a : Assembly) :
    a.fragment.text = String.join a.texts ∧
      a.fragment.placeholders = a.marks.length ∧
      (∀ b : Assembly, b.shape = a.shape → b.fragment.placeholders = a.fragment.placeholders) ∧
      ∀ separator (xs ys : List Fragment), xs ≠ [] → ys ≠ [] →
        Fragment.join separator (xs ++ ys) =
          (Fragment.join separator xs).push separator ++ Fragment.join separator ys :=
  ⟨a.text_fragment, a.placeholders_fragment, fun _ => placeholders_eq_of_shape_eq,
    fun separator _ _ => Fragment.join_append separator⟩

/-- Question marks in a separator, in texts and beside slots, and a first part without text. -/
theorem fragment_conserves_question_marks :
    let a := join "?" [empty, append (ofText "a?") (slot "?"), parenthesized (push (slot "$1") "?")]
    let b := join ", " [empty, append (ofText "") (slot ""), parenthesized (push (slot "?") "b")]
    b.shape = a.shape ∧ a.fragment.text = "?a???($1?)" ∧ a.fragment.placeholders = 2 ∧
      b.fragment.placeholders = 2 ∧
      Fragment.join "?" ([.empty] ++ [.slot "?", .empty]) = ⟨"???", 1⟩ := by
  intro a b
  obtain ⟨htext, hcount, hshape, hjoin⟩ := fragment_conserves a
  have hsame : b.shape = a.shape := by simp [a, b, shape]
  have hmarks : a.marks.length = 2 := by simp [a, marks]
  refine ⟨hsame, ?_, hcount.trans hmarks, (hshape b hsame).trans (hcount.trans hmarks), ?_⟩
  · rw [htext]
    simp [a, texts, List.intercalate_cons_cons]
  · exact (hjoin "?" [.empty] [.slot "?", .empty] (by simp) (by simp)).trans rfl

end Assembly

end BulkWrite
