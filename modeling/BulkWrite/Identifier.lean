import BulkWrite.Dialect
import BulkWrite.Text.Quoted
import BulkWrite.Text.Separated

/-!
Identifiers as a dialect writes them. A dotted name is quoted segment by segment, and a closing
quote inside a segment is written twice. Main statement: quoting a qualified name qualifies the
quoted names (`quote_qualified`).
-/
namespace BulkWrite

def Quotes.wrap (q : Quotes) (segment : List Char) : List Char :=
  Text.quoted q.opening q.closing segment

/-- The dots of a name divide it into segments, and stay between the quoted segments. -/
def Quotes.encode (q : Quotes) (name : List Char) : List Char :=
  ['.'].intercalate ((name.splitOn '.').map q.wrap)

theorem Quotes.encode_append_dot (q : Quotes) (a b : List Char) :
    q.encode (a ++ '.' :: b) = q.encode a ++ '.' :: q.encode b := by
  have ha : (a.splitOn '.').map q.wrap ≠ [] := by simp [List.splitOn_ne_nil]
  have hb : (b.splitOn '.').map q.wrap ≠ [] := by simp [List.splitOn_ne_nil]
  simp only [encode, List.splitOn_append_cons_self, List.map_append]
  rw [Text.intercalate_append ['.'] ha hb]
  simp

namespace Dialect

/-- The name of a table or a column as it stands in a statement. -/
def quote (d : Dialect) (name : String) : String :=
  .ofList (d.quotes.encode name.toList)

def columnList (d : Dialect) (columns : List String) : String :=
  ", ".intercalate (columns.map d.quote)

@[simp] theorem toList_quote (d : Dialect) (name : String) :
    (d.quote name).toList = d.quotes.encode name.toList := by
  simp [quote]

theorem quote_qualified (d : Dialect) (qualifier name : String) :
    d.quote (qualifier ++ "." ++ name) = d.quote qualifier ++ "." ++ d.quote name := by
  apply String.toList_inj.1
  simp [Quotes.encode_append_dot]

end Dialect

end BulkWrite
