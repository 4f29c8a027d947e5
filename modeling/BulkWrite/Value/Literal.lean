import BulkWrite.Decimal.Positional
import BulkWrite.Text.Quoted
import BulkWrite.Value

/-!
SQL literals. They are for display only, since statements bind their values.
-/
namespace BulkWrite

def byteText (b : UInt8) : List Char :=
  [(b.toNat / 16).digitChar.toUpper, (b.toNat % 16).digitChar.toUpper]

def SqlValue.literal : SqlValue → String
  | null => "NULL"
  | bool b => if b then "TRUE" else "FALSE"
  | int n => toString n.toInt
  | float x => Decimal.floatText x
  | text s => .ofList (Text.quoted '\'' '\'' s.toList)
  | blob bytes => .ofList ('X' :: '\'' :: bytes.flatMap byteText ++ ['\''])

/-- A raw expression displays as it stands. -/
def Value.display : Value → String
  | bound v => v.literal
  | raw sql => sql

end BulkWrite
