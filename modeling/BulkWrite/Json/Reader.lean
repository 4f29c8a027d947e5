import BulkWrite.Entries
import BulkWrite.Json.Token

/-!
Reading a JSON value from its tokens. The arrays and objects around the reader's place are kept on a
stack of limited height. A repeated name keeps its first place and takes its last value. An object may
hold another value as text, and stands for the value of that text.
-/
namespace BulkWrite.Json

variable {ν : Type}

/-- How deep arrays and objects may be nested. -/
def maxDepth : Nat := 127

/-- An object whose first member has this name has no other member, and stands for the value whose
text is the string of that member. After another member the name is a name like any other. -/
def embeddedName : String := "$serde_json::private::RawValue"

namespace Reader

inductive Frame (ν : Type) where
  /-- The items are in reverse order. -/
  | array (items : List (Tree ν))
  /-- The value of the member `name` comes next. -/
  | object (members : List (String × Tree ν)) (name : String)

/-- What has been read, and so what may come next. -/
inductive Place (ν : Type) where
  | beforeValue (frames : List (Frame ν))
  | afterOpenBracket (frames : List (Frame ν))
  | afterItem (items : List (Tree ν)) (frames : List (Frame ν))
  | afterOpenBrace (frames : List (Frame ν))
  | beforeName (members : List (String × Tree ν)) (frames : List (Frame ν))
  | afterName (members : List (String × Tree ν)) (name : String) (frames : List (Frame ν))
  | afterMember (members : List (String × Tree ν)) (frames : List (Frame ν))
  | afterEmbeddedName (frames : List (Frame ν))
  | beforeEmbedded (frames : List (Frame ν))
  /-- The value of an embedded text has been read, and its object has to end. -/
  | afterEmbedded (value : Tree ν) (frames : List (Frame ν))
  | finished (value : Tree ν)

def complete (value : Tree ν) : List (Frame ν) → Place ν
  | [] => .finished value
  | .array items :: frames => .afterItem (value :: items) frames
  | .object members name :: frames => .afterMember (Entries.put name value members) frames

def begin? (frames : List (Frame ν)) : Token ν → Option (Place ν)
  | .openBracket => if frames.length < maxDepth then some (.afterOpenBracket frames) else none
  | .openBrace => if frames.length < maxDepth then some (.afterOpenBrace frames) else none
  | .string s => some (complete (.string s) frames)
  | .atom value => some (complete value frames)
  | .closeBracket | .closeBrace | .comma | .colon => none

/-- The place after one more token. `embedded` reads an embedded text. -/
def step? (embedded : String → Option (Tree ν)) : Place ν → Token ν → Option (Place ν)
  | .beforeValue frames, token => begin? frames token
  | .afterOpenBracket frames, .closeBracket => some (complete (.array []) frames)
  | .afterOpenBracket frames, token => begin? (.array [] :: frames) token
  | .afterItem items frames, .comma => some (.beforeValue (.array items :: frames))
  | .afterItem items frames, .closeBracket => some (complete (.array items.reverse) frames)
  | .afterOpenBrace frames, .closeBrace => some (complete (.object []) frames)
  | .afterOpenBrace frames, .string name =>
    if name = embeddedName then some (.afterEmbeddedName frames)
    else some (.afterName [] name frames)
  | .beforeName members frames, .string name => some (.afterName members name frames)
  | .afterName members name frames, .colon => some (.beforeValue (.object members name :: frames))
  | .afterMember members frames, .comma => some (.beforeName members frames)
  | .afterMember members frames, .closeBrace => some (complete (.object members) frames)
  | .afterEmbeddedName frames, .colon => some (.beforeEmbedded frames)
  | .beforeEmbedded frames, .string text => (embedded text).map (.afterEmbedded · frames)
  | .afterEmbedded value frames, .closeBrace => some (complete value frames)
  | _, _ => none

def Place.value? : Place ν → Option (Tree ν)
  | finished value => some value
  | _ => none

end Reader

def ofTokens? (embedded : String → Option (Tree ν)) (tokens : List (Token ν)) : Option (Tree ν) :=
  (tokens.foldlM (Reader.step? embedded) (.beforeValue [])).bind Reader.Place.value?

theorem ofTokens?_congr {f g : String → Option (Tree ν)} {tokens : List (Token ν)}
    (h : ∀ s, .string s ∈ tokens → f s = g s) : ofTokens? f tokens = ofTokens? g tokens := by
  unfold ofTokens?
  congr 1
  generalize Reader.Place.beforeValue [] = place
  induction tokens generalizing place with
  | nil => rfl
  | cons t ts ih =>
    have ht : Reader.step? f place t = Reader.step? g place t := by
      unfold Reader.step?
      split <;> simp_all
    simp only [List.foldlM_cons, ht]
    congr
    funext next
    exact ih (fun s hs => h s (List.mem_cons_of_mem _ hs)) next

/-- Reads a text in which texts are embedded less than `limit` deep. `number` reads the number
literals. -/
def parseWithin? (number : List Char → Option ν) : (limit : Nat) → String → Option (Tree ν)
  | 0, _ => none
  | limit + 1, text => (tokens? number text).bind (ofTokens? (parseWithin? number limit))

/-- An embedded text is shorter than the text around it, so the length bounds the depth. -/
def parseWith? (number : List Char → Option ν) (text : String) : Option (Tree ν) :=
  parseWithin? number (text.length + 1) text

def parse? (text : String) : Option Json := parseWith? number? text

theorem parseWithin?_eq (number : List Char → Option ν) {m n : Nat} {text : String}
    (hm : text.length < m) (hn : text.length < n) :
    parseWithin? number m text = parseWithin? number n text := by
  induction m generalizing n text with
  | zero => omega
  | succ m ih =>
    obtain _ | n := n
    · omega
    · simp only [parseWithin?]
      cases ht : tokens? number text with
      | none => rfl
      | some tokens =>
        refine ofTokens?_congr fun s hs => ?_
        have := length_lt_of_tokens? ht hs
        exact ih (by omega) (by omega)

theorem parseWith?_eq (number : List Char → Option ν) (text : String) :
    parseWith? number text = (tokens? number text).bind (ofTokens? (parseWith? number)) := by
  rw [parseWith?, parseWithin?]
  cases ht : tokens? number text with
  | none => rfl
  | some tokens =>
    exact ofTokens?_congr fun s hs =>
      parseWithin?_eq number (length_lt_of_tokens? ht hs) (Nat.lt_succ_self _)

end BulkWrite.Json
