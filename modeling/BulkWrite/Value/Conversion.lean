import BulkWrite.Value

/-!
The types of the language whose values can be bound. A narrower integer is widened, a
single-precision float keeps its exact value, and an absent optional value is null.
-/
namespace BulkWrite

class ToSqlValue (α : Type) where
  toSqlValue : α → SqlValue

export ToSqlValue (toSqlValue)

instance : ToSqlValue SqlValue := ⟨id⟩
instance : ToSqlValue Bool := ⟨.bool⟩
instance : ToSqlValue Int64 := ⟨.int⟩
instance : ToSqlValue Int32 := ⟨fun n => .int n.toInt64⟩
instance : ToSqlValue Int16 := ⟨fun n => .int n.toInt64⟩
instance : ToSqlValue UInt32 := ⟨fun n => .int (.ofNat n.toNat)⟩
instance : ToSqlValue UInt16 := ⟨fun n => .int (.ofNat n.toNat)⟩
instance : ToSqlValue UInt8 := ⟨fun n => .int (.ofNat n.toNat)⟩
instance : ToSqlValue Float := ⟨.float⟩
instance : ToSqlValue Float32 := ⟨fun x => .float x.toFloat⟩
instance : ToSqlValue String := ⟨.text⟩
instance : ToSqlValue (List UInt8) := ⟨.blob⟩

instance {α : Type} [ToSqlValue α] : ToSqlValue (Option α) where
  toSqlValue
    | none => .null
    | some a => toSqlValue a

def Value.of {α : Type} [ToSqlValue α] (a : α) : Value := .bound (toSqlValue a)

end BulkWrite
