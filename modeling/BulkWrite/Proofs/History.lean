import BulkWrite.Proofs.Compilation
import BulkWrite.Proofs.Sending
import BulkWrite.Session

/-!
What a session does, call after call. Earlier calls matter to a call only through the connection
(`run_answer`), and a whole session follows by induction (`run_session`).
-/
namespace BulkWrite

/-- What a call returns where the connection answers its statement as `respond` says. -/
inductive Replies (t : Table) (respond : Statement → Except StorageError Nat) :
    Call → Reply → Prop where
  | nothing {w : Write} (hrows : w.rows = []) : Replies t respond (.write w) (.written (.ok 0))
  | refused {w : Write} {cause : CompileError} (hcompile : t.compile w = .error cause) :
    Replies t respond (.write w) (.written (.error (.compile cause)))
  | counted {w : Write} {s : Statement} {count : Nat} (hcompile : t.compile w = .ok (some s))
    (hrespond : respond s = .ok count) : Replies t respond (.write w) (.written (.ok count))
  | failed {w : Write} {s : Statement} {cause : StorageError}
    (hcompile : t.compile w = .ok (some s)) (hrespond : respond s = .error cause) :
    Replies t respond (.write w) (.written (.error (.storage cause)))
  | shown {w : Write} {statement : Option Statement} (hcompile : t.compile w = .ok statement) :
    Replies t respond (.preview w) (.previewed (.ok statement))
  | notShown {w : Write} {cause : CompileError} (hcompile : t.compile w = .error cause) :
    Replies t respond (.preview w) (.previewed (.error (.compile cause)))

theorem WriteError.isUniqueViolation_storage_iff (cause : StorageError) :
    (WriteError.storage cause).isUniqueViolation = true ↔
      ∃ message, cause = .rejected .uniqueViolation message := by
  cases cause with
  | rejected kind message => cases kind <;> simp [isUniqueViolation]
  | noRow => simp [isUniqueViolation]
  | failed message => simp [isUniqueViolation]

namespace Table

def sends? (t : Table) : Call → Option Statement
  | .write w => (t.compile w).toOption.join
  | .preview _ => none

def sent (t : Table) (calls : List Call) : List Statement := calls.filterMap t.sends?

/-- The reply to a call on its own, over a connection that answers as `respond` says. -/
def soleReply (t : Table) (respond : Statement → Except StorageError Nat) (call : Call) : Reply :=
  ((t.answer (.recording fun _ => respond) call).run []).1

@[simp] theorem sends?_preview (t : Table) (w : Write) : t.sends? (.preview w) = none := rfl

variable (t : Table)

section

variable (respond : Statement → Except StorageError Nat)

theorem soleReply_preview (w : Write) :
    t.soleReply respond (.preview w) = .previewed ((t.compile w).mapError .compile) := rfl

theorem soleReply_write (w : Write) :
    t.soleReply respond (.write w) = .written (match t.compile w with
      | .error cause => .error (.compile cause)
      | .ok none => .ok 0
      | .ok (some s) => (respond s).mapError .storage) := by
  have hrun : t.soleReply respond (.write w) =
      .written ((t.write (.recording fun _ => respond) w).run []).1 := rfl
  rw [hrun, run_write]
  cases t.compile w with
  | error cause => rfl
  | ok statement => cases statement <;> rfl

/-- There is exactly one reply to each call. -/
theorem replies_iff (call : Call) (reply : Reply) :
    Replies t respond call reply ↔ reply = t.soleReply respond call := by
  constructor
  · intro h
    cases h with
    | nothing hrows => rw [soleReply_write, (t.compile_eq_none_iff _).mpr hrows]
    | refused hcompile => rw [soleReply_write, hcompile]
    | counted hcompile hrespond => simp only [soleReply_write, hcompile, hrespond]; rfl
    | failed hcompile hrespond => simp only [soleReply_write, hcompile, hrespond]; rfl
    | shown hcompile => rw [soleReply_preview, hcompile]; rfl
    | notShown hcompile => rw [soleReply_preview, hcompile]; rfl
  · rintro rfl
    cases call with
    | preview w =>
      rw [soleReply_preview]
      cases hcompile : t.compile w with
      | error cause => exact .notShown hcompile
      | ok statement => exact .shown hcompile
    | write w =>
      rw [soleReply_write]
      cases hcompile : t.compile w with
      | error cause => exact .refused hcompile
      | ok statement =>
        cases statement with
        | none => exact .nothing ((t.compile_eq_none_iff w).mp hcompile)
        | some s =>
          simp only
          cases hrespond : respond s with
          | ok count => exact .counted hcompile hrespond
          | error cause => exact .failed hcompile hrespond

theorem isUniqueViolation_soleReply_iff (call : Call) :
    (t.soleReply respond call).isUniqueViolation = true ↔
      ∃ w s message, call = .write w ∧ t.compile w = .ok (some s) ∧
        respond s = .error (.rejected .uniqueViolation message) := by
  have hcause : ∀ cause, (WriteError.compile cause).isUniqueViolation = false := fun _ => rfl
  cases call with
  | preview w =>
    rw [soleReply_preview]
    cases t.compile w <;> simp [Except.mapError, Reply.isUniqueViolation, hcause]
  | write w =>
    simp only [soleReply_write, Call.write.injEq, exists_and_left, exists_eq_left']
    cases t.compile w with
    | error cause => simp [Reply.isUniqueViolation, hcause]
    | ok statement =>
      cases statement with
      | none => simp [Reply.isUniqueViolation]
      | some s =>
        cases hrespond : respond s with
        | ok count => simp [hrespond, Reply.isUniqueViolation, Except.mapError]
        | error cause =>
          simp [hrespond, Reply.isUniqueViolation, Except.mapError,
            WriteError.isUniqueViolation_storage_iff]

end

section

variable (respond : List Statement → Statement → Except StorageError Nat)

theorem sent_cons (call : Call) (calls : List Call) :
    t.sent (call :: calls) = (t.sends? call).toList ++ t.sent calls := by
  cases h : t.sends? call <;> simp [sent, h]

/-- One call: the reply does not depend on the statements that came before it but through the answer
of the connection, and the statement does not depend on them at all. -/
theorem run_answer (call : Call) (log : List Statement) :
    (t.answer (.recording respond) call).run log =
      (t.soleReply (respond log) call, log ++ (t.sends? call).toList) := by
  cases call with
  | preview w =>
    rw [sends?_preview, Option.toList_none, List.append_nil]
    rfl
  | write w =>
    have hrun : (t.answer (.recording respond) (.write w)).run log =
        (.written ((t.write (.recording respond) w).run log).1,
          ((t.write (.recording respond) w).run log).2) := rfl
    rw [hrun, run_write, soleReply_write, sends?]
    cases t.compile w with
    | error cause => simp [Except.toOption]
    | ok statement => cases statement <;> simp [Except.toOption]

theorem run_answerAll_cons (call : Call) (calls : List Call) (log : List Statement) :
    (t.answerAll (.recording respond) (call :: calls)).run log =
      let rest := (t.answerAll (.recording respond) calls).run (log ++ (t.sends? call).toList)
      (t.soleReply (respond log) call :: rest.1, rest.2) := by
  simp only [answerAll, List.mapM_cons, StateT.run_bind, run_answer]
  rfl

theorem log_answerAll (calls : List Call) (log : List Statement) :
    ((t.answerAll (.recording respond) calls).run log).2 = log ++ t.sent calls := by
  induction calls generalizing log with
  | nil => exact (List.append_nil log).symm
  | cons call calls ih => simp only [run_answerAll_cons, ih, sent_cons, List.append_assoc]

theorem length_answerAll (calls : List Call) (log : List Statement) :
    ((t.answerAll (.recording respond) calls).run log).1.length = calls.length := by
  induction calls generalizing log with
  | nil => rfl
  | cons call calls ih => simp only [run_answerAll_cons, List.length_cons, ih]

theorem getElem?_answerAll {calls : List Call} {i : Nat} {call : Call} (hcall : calls[i]? = some call)
    (log : List Statement) :
    ((t.answerAll (.recording respond) calls).run log).1[i]? =
      some (t.soleReply (respond (log ++ t.sent (calls.take i))) call) := by
  induction calls generalizing i log with
  | nil => simp at hcall
  | cons first calls ih =>
    rw [run_answerAll_cons]
    cases i with
    | zero =>
      obtain rfl : first = call := by simpa using hcall
      simp [sent]
    | succ i =>
      have hnext : calls[i]? = some call := by simpa using hcall
      simp only [List.getElem?_cons_succ, List.take_succ_cons, sent_cons, ih hnext,
        List.append_assoc]

end

/-- The connection receives the statements that the writes compile to, each once and in the order of
the calls. The reply to a call is settled by the call and by the answer to its own statement, and is
a unique violation exactly if the connection has refused this statement as one. The same call on its
own gets the same reply, if it is answered alike. -/
theorem run_session (respond : List Statement → Statement → Except StorageError Nat)
    (calls : List Call) (log : List Statement) :
    let session := (t.answerAll (.recording respond) calls).run log
    session.2 = log ++ t.sent calls ∧
      session.1.length = calls.length ∧
      ∀ i : Fin calls.length,
        let respondNow := respond (log ++ t.sent (calls.take i))
        ∃ reply, session.1[i]? = some reply ∧
          (∀ reply', Replies t respondNow calls[i] reply' ↔ reply' = reply) ∧
          (reply.isUniqueViolation = true ↔ ∃ w s message, calls[i] = .write w ∧
            t.compile w = .ok (some s) ∧
            respondNow s = .error (.rejected .uniqueViolation message)) ∧
          ((t.answer (.recording fun _ => respondNow) calls[i]).run []).1 = reply := by
  intro session
  refine ⟨t.log_answerAll respond calls log, t.length_answerAll respond calls log, fun i => ?_⟩
  intro respondNow
  refine ⟨t.soleReply respondNow calls[i], ?_, ?_, ?_, rfl⟩
  · exact t.getElem?_answerAll respond (List.getElem?_eq_getElem i.isLt) log
  · exact t.replies_iff respondNow calls[i]
  · exact t.isUniqueViolation_soleReply_iff respondNow calls[i]

end Table

end BulkWrite
