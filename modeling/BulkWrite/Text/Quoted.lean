/-!
Quoted text: a body between an opening and a closing quote, with each closing quote of the body
written twice.
-/
namespace BulkWrite.Text

/-- How `c` is written inside quotes that end with `closing`. -/
def doubled (closing c : Char) : List Char :=
  if c = closing then [c, c] else [c]

def escape (closing : Char) (body : List Char) : List Char :=
  body.flatMap (doubled closing)

def quoted (opening closing : Char) (body : List Char) : List Char :=
  opening :: escape closing body ++ [closing]

@[simp] theorem escape_nil (closing : Char) : escape closing [] = [] := rfl

theorem escape_cons (closing c : Char) (body : List Char) :
    escape closing (c :: body) = doubled closing c ++ escape closing body := rfl

theorem escape_cons_self (closing : Char) (body : List Char) :
    escape closing (closing :: body) = closing :: closing :: escape closing body := by
  simp [escape_cons, doubled]

theorem escape_cons_of_ne {c closing : Char} (h : c ≠ closing) (body : List Char) :
    escape closing (c :: body) = c :: escape closing body := by
  simp [escape_cons, doubled, h]

theorem escape_eq_self {closing : Char} {body : List Char} (h : closing ∉ body) :
    escape closing body = body := by
  induction body with
  | nil => rfl
  | cons c body ih =>
    rw [List.mem_cons, not_or] at h
    rw [escape_cons_of_ne (Ne.symm h.1), ih h.2]

end BulkWrite.Text
