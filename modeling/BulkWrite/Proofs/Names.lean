import BulkWrite.Identifier
import BulkWrite.Proofs.Readers

/-!
Quoted names are read back. A reader of names takes quoted segments off a text for as long as dots
follow, and undoubles their closing quotes; a list of columns is read up to its parenthesis. Main
statement: `names_read_back`.
-/
namespace BulkWrite

open Text (Apart Reader)

namespace Quotes

variable (q : Quotes)

def segmentsReader : Reader (List (List Char)) :=
  (Reader.quoted q.opening q.closing).sepBy ['.']

variable {q}

theorem read_segments_iff (hdot : '.' ≠ q.closing) (text : List Char) (segments : List (List Char))
    (rest : List Char) :
    q.segmentsReader.read text = some (segments, rest) ↔
      segments ≠ [] ∧ text = ['.'].intercalate (segments.map q.wrap) ++ rest ∧
        Apart [q.closing, '.'] rest := by
  have hquoted := Reader.reads_quoted q.opening q.closing
  constructor
  · intro h
    obtain ⟨hsegments, htext, hclosing, hmore⟩ := hquoted.of_sepBy h
    refine ⟨hsegments, htext, ?_⟩
    cases rest with
    | nil => simp
    | cons c rest => simp_all [eq_comm]
  · rintro ⟨hsegments, rfl, hrest⟩
    have hsep : '.' ∉ [q.closing] := by simpa using hdot
    have hrecovers := Reader.Recovers.sepBy [] hsep hsegments fun segment _ =>
      hquoted.recovers segment
    exact hrecovers rest (hrest.mono (by simp))

end Quotes

namespace Dialect

variable (d : Dialect)

/-- The characters that a quoted name may not be followed by. -/
def nameStops : List Char := [d.quotes.closing, '.']

@[simp] theorem blank_notMem_nameStops : ' ' ∉ d.nameStops := by
  cases d <;> decide

@[simp] theorem comma_notMem_nameStops : ',' ∉ d.nameStops := by
  cases d <;> decide

@[simp] theorem parenthesis_notMem_nameStops : ')' ∉ d.nameStops := by
  cases d <;> decide

def nameReader : Reader String :=
  d.quotes.segmentsReader.map fun segments => .ofList (['.'].intercalate segments)

/-- Names with commas between them, if there are any, up to a closing parenthesis. -/
def readColumns (text : List Char) : Option (List String × List Char) :=
  match ((d.nameReader.sepBy [',', ' ']).read text).getD ([], text) with
  | (columns, ')' :: rest) => some (columns, rest)
  | _ => none

theorem dot_ne_closing : '.' ≠ d.quotes.closing := by
  cases d <;> decide

theorem read_name_iff (text : List Char) (name : String) (rest : List Char) :
    d.nameReader.read text = some (name, rest) ↔
      ∃ segments ≠ [], name = .ofList (['.'].intercalate segments) ∧
        text = ['.'].intercalate (segments.map d.quotes.wrap) ++ rest ∧
          Apart d.nameStops rest := by
  have hsegments := Quotes.read_segments_iff d.dot_ne_closing text
  constructor
  · intro h
    obtain ⟨⟨segments, rest'⟩, hread, hname⟩ := Option.map_eq_some_iff.1 h
    obtain ⟨rfl, rfl⟩ := Prod.mk.inj hname
    obtain ⟨hne, htext, hrest⟩ := (hsegments segments rest').1 hread
    exact ⟨segments, hne, rfl, htext, hrest⟩
  · rintro ⟨segments, hne, rfl, htext, hrest⟩
    have hread := (hsegments segments rest).2 ⟨hne, htext, hrest⟩
    exact Option.map_eq_some_iff.2 ⟨(segments, rest), hread, rfl⟩

theorem recovers_quote (name : String) :
    d.nameReader.Recovers d.nameStops (d.quote name).toList name := by
  intro rest hrest
  refine (d.read_name_iff _ name rest).2 ⟨_, List.splitOn_ne_nil '.' name.toList, ?_, ?_, hrest⟩
  · rw [List.intercalate_splitOn, String.ofList_toList]
  · rw [toList_quote, Quotes.encode]

theorem read_name_parenthesis (rest : List Char) : d.nameReader.read (')' :: rest) = none := by
  have hquoted : (Reader.quoted d.quotes.opening d.quotes.closing).read (')' :: rest) = none := by
    cases d <;> rfl
  exact Option.map_eq_none_iff.2 (Reader.readSepBy_of_none hquoted)

theorem recovers_columnList {columns : List String} (h : columns ≠ []) :
    (d.nameReader.sepBy [',', ' ']).Recovers (',' :: d.nameStops) (d.columnList columns).toList
      columns :=
  Reader.Recovers.sepBy_comma d.comma_notMem_nameStops h fun name _ => d.recovers_quote name

/-- Without columns there is nothing in front of the parenthesis, and no name begins with one. -/
theorem readColumns_columnList (columns : List String) (rest : List Char) :
    d.readColumns ((d.columnList columns).toList ++ ')' :: rest) = some (columns, rest) := by
  unfold readColumns
  cases columns with
  | nil =>
    have hread : (d.nameReader.sepBy [',', ' ']).read (')' :: rest) = none :=
      Reader.readSepBy_of_none (d.read_name_parenthesis rest)
    have htext : (d.columnList []).toList = [] := rfl
    rw [htext, List.nil_append, hread]
    rfl
  | cons column columns =>
    have hread := d.recovers_columnList (List.cons_ne_nil column columns) (')' :: rest) (by simp)
    rw [hread]
    rfl

theorem quote_injective : Function.Injective d.quote := by
  intro a b h
  have htext : (d.quote a).toList ++ [] = (d.quote b).toList ++ [] := by rw [h]
  exact ((d.recovers_quote a).inj (d.recovers_quote b) (by simp) (by simp) htext).1

theorem columnList_injective : Function.Injective d.columnList := by
  intro columns columns' h
  have hread := d.readColumns_columnList columns []
  rw [h, d.readColumns_columnList columns' []] at hread
  exact (Prod.mk.inj (Option.some.inj hread)).1.symm

/-- Whatever a name is made of, it is read back from its quoted form in front of any text that begins
neither with a closing quote nor with a dot, and that text is left. So quoting is injective, and so is
listing columns, which are read back up to the parenthesis that follows them. -/
theorem names_read_back :
    (∀ text name rest, d.nameReader.read text = some (name, rest) ↔
        ∃ segments ≠ [], name = .ofList (['.'].intercalate segments) ∧
          text = ['.'].intercalate (segments.map d.quotes.wrap) ++ rest ∧
            Apart [d.quotes.closing, '.'] rest) ∧
      (∀ name rest, Apart [d.quotes.closing, '.'] rest →
        d.nameReader.read ((d.quote name).toList ++ rest) = some (name, rest)) ∧
      Function.Injective d.quote ∧
      Function.Injective d.columnList ∧
      ∀ columns rest,
        d.readColumns ((d.columnList columns).toList ++ ')' :: rest) = some (columns, rest) :=
  ⟨d.read_name_iff, d.recovers_quote, d.quote_injective, d.columnList_injective,
    d.readColumns_columnList⟩

/-- The name is the text between two quoted segments. -/
theorem names_read_back_separator :
    Apart [sqlServer.quotes.closing, '.'] " = 1".toList ∧
      sqlServer.nameReader.read "[]]].[[] = 1".toList = some ("].[", " = 1".toList) := by
  have hrest : Apart [sqlServer.quotes.closing, '.'] " = 1".toList :=
    (Text.apart_cons _ ' ' ['=', ' ', '1']).2 (by decide)
  obtain ⟨-, hread, -⟩ := names_read_back sqlServer
  exact ⟨hrest, hread "].[" " = 1".toList hrest⟩

end Dialect

end BulkWrite
