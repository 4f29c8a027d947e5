import BulkWrite.Json.Number
import BulkWrite.Json.Text

/-!
The tokens of a JSON text: marks, strings, and words. A word is a run of characters between white
space, marks and quotes, and has to be a number or one of the three names.
-/
namespace BulkWrite.Json

variable {ν : Type}

inductive Token (ν : Type) where
  | openBracket
  | closeBracket
  | openBrace
  | closeBrace
  | comma
  | colon
  | string (s : String)
  /-- A number, a truth value or null. -/
  | atom (value : Tree ν)

namespace Token

def isSpace (c : Char) : Bool := c = ' ' || c = '\t' || c = '\n' || c = '\r'

def mark? : Char → Option (Token ν)
  | '[' => some openBracket
  | ']' => some closeBracket
  | '\x7b' => some openBrace
  | '\x7d' => some closeBrace
  | ',' => some comma
  | ':' => some colon
  | _ => none

/-- `number` reads the number literals. -/
def word? (number : List Char → Option ν) (cs : List Char) : Option (Token ν) :=
  if cs = ['n', 'u', 'l', 'l'] then some (atom .null)
  else if cs = ['t', 'r', 'u', 'e'] then some (atom (.bool true))
  else if cs = ['f', 'a', 'l', 's', 'e'] then some (atom (.bool false))
  else (number cs).map fun n => atom (.number n)

/-- The token of a finished word; no word gives no token. The characters are in reverse order. -/
def ofWord? (number : List Char → Option ν) (word : List Char) : Option (List (Token ν)) :=
  if word.isEmpty then some [] else (word? number word.reverse).map ([·])

/-- Where in a text the scanner is, with what it has read of a word or a string in reverse order. -/
inductive Mode where
  | outside (word : List Char)
  | inside (body : List Char)
  /-- After a backslash. -/
  | escape (body : List Char)

def scan? (number : List Char → Option ν) : Mode → List Char → Option (List (Token ν))
  | .outside word, [] => ofWord? number word
  | .outside word, c :: cs =>
    if isSpace c then do
      return (← ofWord? number word) ++ (← scan? number (.outside []) cs)
    else if c = '"' then do
      return (← ofWord? number word) ++ (← scan? number (.inside []) cs)
    else match mark? c with
      | some mark => do
        return (← ofWord? number word) ++ mark :: (← scan? number (.outside []) cs)
      | none => scan? number (.outside (c :: word)) cs
  | .inside body, c :: cs =>
    if c = '"' then do
      return .string (← Text.decode? body.reverse) :: (← scan? number (.outside []) cs)
    else if c = '\\' then scan? number (.escape (c :: body)) cs
    else scan? number (.inside (c :: body)) cs
  | .escape body, c :: cs => scan? number (.inside (c :: body)) cs
  | .inside _, [] | .escape _, [] => none

def Mode.length : Mode → Nat
  | outside word => word.length
  | inside body => body.length + 1
  | escape body => body.length + 1

theorem mark?_ne_string (c : Char) (s : String) : mark? c ≠ some (string s : Token ν) := by
  unfold mark?
  split <;> simp

theorem string_not_mem_of_ofWord? {number : List Char → Option ν} {word : List Char}
    {tokens : List (Token ν)} (h : ofWord? number word = some tokens) (s : String) :
    string s ∉ tokens := by
  grind [ofWord?, word?, Option.map_eq_some_iff]

theorem length_lt_of_scan? {number : List Char → Option ν} {mode : Mode} {cs : List Char}
    {tokens : List (Token ν)} (h : scan? number mode cs = some tokens) {s : String}
    (hs : string s ∈ tokens) : s.length < mode.length + cs.length := by
  fun_induction scan? number mode cs generalizing tokens with
  | case1 => exact absurd hs (string_not_mem_of_ofWord? h s)
  | case2 | case3 | case4 =>
    simp only [Option.bind_eq_bind, Option.bind_eq_some_iff, Option.pure_def,
      Option.some.injEq] at h
    obtain ⟨before, hb, after, ha, rfl⟩ := h
    have := string_not_mem_of_ofWord? hb s
    grind [mark?_ne_string, Mode.length]
  | case6 body cs ih =>
    simp only [Option.bind_eq_bind, Option.bind_eq_some_iff, Option.pure_def,
      Option.some.injEq] at h
    obtain ⟨t, ht, after, ha, rfl⟩ := h
    have := Text.length_le_of_decode? ht
    grind [Mode.length]
  | _ => grind [Mode.length]

end Token

def tokens? (number : List Char → Option ν) (text : String) : Option (List (Token ν)) :=
  Token.scan? number (.outside []) text.toList

theorem length_lt_of_tokens? {number : List Char → Option ν} {text : String}
    {tokens : List (Token ν)} (h : tokens? number text = some tokens) {s : String}
    (hs : .string s ∈ tokens) : s.length < text.length := by
  simpa [Token.Mode.length, String.length_toList] using Token.length_lt_of_scan? h hs

end BulkWrite.Json
