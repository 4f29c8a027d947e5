import BulkWrite.Error
import BulkWrite.Fragment
import BulkWrite.Update

/-!
Statements: SQL text and the values to bind to its slots, in the order of the slots. The values of
the rows come first, row by row, then those of the update clause.
-/
namespace BulkWrite

structure Statement where
  sql : String
  bindings : List SqlValue
  deriving DecidableEq, BEq, Inhabited

def boundValues (values : List Value) : List SqlValue := values.filterMap Value.bound?

def bindings (rows : List Row) (update : UpdateSpec) : List SqlValue :=
  boundValues (rows.flatMap Row.values ++ update.assignedValues)

/-- Refuses a fragment whose slots are not as many as the values. -/
def Statement.pair (fragment : Fragment) (values : List SqlValue) : Except CompileError Statement :=
  if fragment.placeholders = values.length then .ok ⟨fragment.text, values⟩
  else .error (.misbound fragment.placeholders values.length)

@[simp] theorem boundValues_append (vs ws : List Value) :
    boundValues (vs ++ ws) = boundValues vs ++ boundValues ws :=
  List.filterMap_append

theorem bindings_eq (rows : List Row) (update : UpdateSpec) :
    bindings rows update = bindings rows [] ++ boundValues update.assignedValues := by
  simp [bindings]

theorem Statement.pair_of_eq {f : Fragment} {vs : List SqlValue}
    (h : f.placeholders = vs.length) : pair f vs = .ok ⟨f.text, vs⟩ :=
  if_pos h

end BulkWrite
