import TableLoom.Proofs.Database.Lending

/-!
What the state of a transaction says. It is settled by the end that was asked for, and not by what the
server made of it: a transaction shows as committed after any commit, and tells so for good, although the
server may have refused.
-/

namespace TableLoom.Database

/-- The state of a transaction whose end was asked for. -/
def Event.verdict? : Event → Option TransactionState
  | commit .. => some .committed
  | rollback .. => some .rolledBack
  | _ => none

namespace Transaction

/-- What one use of a transaction is answered with. -/
def answer (t : Transaction) : Use → Except TransactionError Unit
  | .commit ending => (t.commit ending).2.result
  | .rollback ending => (t.rollback ending).2.result
  | .work _ => t.executor.map fun _ => ()
  | .leave error ending => (t.leave error ending).2.result

def answers (t : Transaction) : List Use → List (Except TransactionError Unit)
  | [] => []
  | u :: rest => t.answer u :: (t.use u).1.answers rest

section

variable {t : Transaction}

theorem findSome?_verdict_quiet {events : List Event} (h : t.Quiet events) :
    events.findSome? Event.verdict? = none := by
  refine List.findSome?_eq_none_iff.mpr fun e he => ?_
  rcases h e he with rfl | ⟨st, rfl⟩ | rfl <;> rfl

/-- Statements leave an active transaction as it is. All else ends it. -/
theorem use_cases (active : t.state = .active) (u : Use) :
    (∃ events, t.use u = (t, events) ∧ t.Quiet events) ∨
      ∃ commit ending, t.use u = ((t.finish commit ending).1, (t.finish commit ending).2.events) ∧
        t.answer u = (t.finish commit ending).2.result := by
  cases u with
  | commit ending => exact .inr ⟨true, ending, by simp [use, commit, active],
      by simp [answer, commit, active]⟩
  | rollback ending => exact .inr ⟨false, ending, by simp [use, rollback, active],
      by simp [answer, rollback, active]⟩
  | leave error ending => exact .inr ⟨false, ending, by simp [use, leave, isActive, rollback, active],
      by simp [answer, leave, isActive, rollback, active]⟩
  | work statements =>
      have hsame : (t.use (.work statements)).1 = t := by
        cases hexecutor : t.executor <;> simp only [use, hexecutor]
      have hturn := t.turn_use (.work statements)
      generalize t.use (.work statements) = next at hsame hturn
      obtain ⟨t', events⟩ := next
      cases hturn with
      | working _ quiet => exact .inl ⟨events, rfl, quiet⟩
      | ended spent => exact absurd active spent
      | settled state _ spent _ =>
          have hstate : state = t.state := congrArg (·.state) hsame
          exact absurd (hstate.trans active) spent

theorem state_finish (t : Transaction) (commit : Bool) (ending : Ending) :
    (t.finish commit ending).2.events.findSome? Event.verdict? =
      some (t.finish commit ending).1.state := by
  cases commit <;> rfl

/-- An active transaction is afterwards in the state that the end asked for stands for, if one was. -/
theorem state_use (active : t.state = .active) (u : Use) :
    (t.use u).1.state = ((t.use u).2.findSome? Event.verdict?).getD .active := by
  obtain ⟨events, huse, quiet⟩ | ⟨commit, ending, huse, -⟩ := use_cases active u
  · rw [huse, findSome?_verdict_quiet quiet, Option.getD_none, active]
  · rw [huse, state_finish, Option.getD_some]

theorem state_after (active : t.state = .active) (uses : List Use) :
    (t.after uses).state = ((t.log uses).findSome? Event.verdict?).getD .active := by
  induction uses with
  | nil => exact active
  | cons u rest ih =>
      have hturn := turn_use t u
      have hstate := state_use active u
      rw [after, List.foldl_cons, log, List.findSome?_append]
      generalize t.use u = next at hturn hstate
      obtain ⟨t', events⟩ := next
      cases hturn with
      | ended spent => exact absurd active spent
      | working _ quiet =>
          rw [findSome?_verdict_quiet quiet, Option.none_or]
          exact ih
      | @settled state e _ spent _ =>
          obtain ⟨hafter, hlog⟩ := spent_stays (t := { t with state }) spent rest
          rw [hlog, List.findSome?_nil, Option.or_none, ← hstate]
          exact congrArg (·.state) hafter

/-- Either the end of the transaction was not asked for, or its state is the one that was asked for. -/
theorem ending_cases (active : t.state = .active) (uses : List Use) :
    ∃ work, t.Quiet work ∧
      ((t.after uses).state = .active ∧ t.log uses = work ∨
        ∃ e, t.Ends e ∧ e.verdict? = some (t.after uses).state ∧
          t.log uses = work ++ e :: t.source.release t.connection) := by
  have hstate := state_after active uses
  obtain ⟨work, hwork, ⟨hafter, hlog⟩ | ⟨state, e, -, hends, -, hlog⟩⟩ := log_cases active uses
  · exact ⟨work, hwork, .inl ⟨by rw [hafter, active], hlog⟩⟩
  · refine ⟨work, hwork, .inr ⟨e, hends, ?_, hlog⟩⟩
    rw [hlog, List.findSome?_append, findSome?_verdict_quiet hwork, Option.none_or] at hstate
    rw [hstate]
    obtain ⟨agreed, rfl | rfl⟩ := hends <;> rfl

theorem Quiet.ending_notMem {work : List Event} (quiet : t.Quiet work) {e : Event}
    (ending : e.isEnding = true) : e ∉ work := by
  intro hmem
  rcases quiet e hmem with rfl | ⟨st, rfl⟩ | rfl <;> cases ending

theorem mem_log {work : List Event} (quiet : t.Quiet work) {e e' : Event}
    (ending : e'.isEnding = true) :
    e' ∈ work ++ e :: t.source.release t.connection ↔ e' = e := by
  have hwork := quiet.ending_notMem ending
  have hrelease : e' ∉ t.source.release t.connection := by
    cases t.source with
    | bound c inTransaction => exact List.not_mem_nil
    | pooled pool =>
        intro hmem
        obtain rfl := List.mem_singleton.mp hmem
        cases ending
  simp [hwork, hrelease]

theorem connection_use (t : Transaction) (u : Use) : (t.use u).1.connection = t.connection := by
  have hturn := turn_use t u
  generalize t.use u = next at hturn
  obtain ⟨t', events⟩ := next
  cases hturn <;> rfl

theorem use_spent (spent : t.state ≠ .active) (u : Use) : (t.use u).2 = [] := by
  have hlog := (spent_stays spent [u]).2
  rwa [log, log, List.append_nil] at hlog

theorem answer_of_refused {u : Use} (refused : .commit t.connection false ∈ (t.use u).2) :
    ∃ f, t.answer u = .error (.failed (.ofFault f "COMMIT" 0)) := by
  by_cases active : t.state = .active
  · obtain ⟨events, huse, quiet⟩ | ⟨commit, ending, huse, hanswer⟩ := use_cases active u
    · rw [huse] at refused
      rcases quiet _ refused with h | ⟨st, h⟩ | h <;> cases h
    · rw [huse] at refused
      have quiet : t.Quiet [] := List.forall_mem_nil _
      have hevent := (mem_log quiet rfl).mp refused
      cases commit with
      | false => cases hevent
      | true =>
          cases ending with
          | none => cases hevent
          | some f => exact ⟨f, hanswer⟩
  · rw [use_spent active] at refused
    cases refused

/-- A commit that the server refuses is reported by the call that asks for it. -/
theorem refusal_reported {uses : List Use} (refused : .commit t.connection false ∈ t.log uses) :
    ∃ f, .error (.failed (.ofFault f "COMMIT" 0)) ∈ t.answers uses := by
  induction uses generalizing t with
  | nil => cases refused
  | cons u rest ih =>
      rw [log, List.mem_append] at refused
      rcases refused with hnow | hlater
      · obtain ⟨f, hf⟩ := answer_of_refused hnow
        exact ⟨f, hf ▸ List.mem_cons_self⟩
      · obtain ⟨f, hf⟩ := ih ((connection_use t u).symm ▸ hlater)
        exact ⟨f, List.mem_cons_of_mem _ hf⟩

end

/-- A commit was asked for in the course of some uses, and the server agreed or refused. -/
def AskedCommit (t : Transaction) (uses : List Use) (agreed : Bool) : Prop :=
  .commit t.connection agreed ∈ t.log uses

def AskedRollback (t : Transaction) (uses : List Use) (agreed : Bool) : Prop :=
  .rollback t.connection agreed ∈ t.log uses

theorem asked_cases {t : Transaction} (active : t.state = .active) (uses : List Use) :
    ((t.after uses).state = .active ∧ ∀ agreed, ¬ t.AskedCommit uses agreed ∧
        ¬ t.AskedRollback uses agreed) ∨
      ((t.after uses).state = .committed ∧ ∃ answer, ∀ agreed,
        (t.AskedCommit uses agreed ↔ agreed = answer) ∧ ¬ t.AskedRollback uses agreed) ∨
      ((t.after uses).state = .rolledBack ∧ ∃ answer, ∀ agreed,
        ¬ t.AskedCommit uses agreed ∧ (t.AskedRollback uses agreed ↔ agreed = answer)) := by
  unfold AskedCommit AskedRollback
  obtain ⟨work, quiet, ⟨hstate, hlog⟩ | ⟨e, ⟨answer, rfl | rfl⟩, hstate, hlog⟩⟩ :=
    ending_cases active uses
  · rw [hlog]
    exact .inl ⟨hstate, fun agreed => ⟨quiet.ending_notMem rfl, quiet.ending_notMem rfl⟩⟩
  · refine .inr (.inl ⟨(Option.some.inj hstate).symm, answer, fun agreed => ?_⟩)
    rw [hlog, mem_log quiet rfl, mem_log quiet rfl]
    simp
  · refine .inr (.inr ⟨(Option.some.inj hstate).symm, answer, fun agreed => ?_⟩)
    rw [hlog, mem_log quiet rfl, mem_log quiet rfl]
    simp

/-- What a transaction says of its end. -/
structure Told (t : Transaction) (uses : List Use) : Prop where
  /-- It shows as committed after any commit, agreed to or refused. -/
  committed : (t.after uses).state = .committed ↔ ∃ agreed, t.AskedCommit uses agreed
  rolledBack : (t.after uses).state = .rolledBack ↔ ∃ agreed, t.AskedRollback uses agreed
  /-- What shows as committed was agreed to by the server exactly if no commit was refused. -/
  agreed : ((t.after uses).state = .committed ↔ t.AskedCommit uses true) ↔ ¬ t.AskedCommit uses false
  /-- The call that asks for a commit reports its refusal. -/
  reported : t.AskedCommit uses false →
    ∃ f, .error (.failed (.ofFault f "COMMIT" 0)) ∈ t.answers uses
  /-- Later calls say that the transaction was committed, whatever the server answered. -/
  commitAgain : ∀ ending, ((t.after uses).commit ending).2.result = .error .committedAlready ↔
    ∃ agreed, t.AskedCommit uses agreed
  rollbackAfter : ∀ ending, ((t.after uses).rollback ending).2.result = .error .rollbackOfCommitted ↔
    ∃ agreed, t.AskedCommit uses agreed
  /-- Leaving the block does nothing and reports nothing then. -/
  left : (∃ agreed, t.AskedCommit uses agreed) → ∀ error ending,
    (t.after uses).use (.leave error ending) = (t.after uses, []) ∧
      (t.after uses).answer (.leave error ending) = .ok ()

theorem commit_committedAlready (t : Transaction) (ending : Ending) :
    (t.commit ending).2.result = .error .committedAlready ↔ t.state = .committed := by
  unfold commit
  cases hstate : t.state <;> cases ending <;> simp [finish, settled]

theorem rollback_rollbackOfCommitted (t : Transaction) (ending : Ending) :
    (t.rollback ending).2.result = .error .rollbackOfCommitted ↔ t.state = .committed := by
  unfold rollback
  cases hstate : t.state <;> cases ending <;> simp [finish, settled]

theorem told {t : Transaction} (active : t.state = .active) (uses : List Use) : Told t uses := by
  have hcommitted : (t.after uses).state = .committed ↔ ∃ agreed, t.AskedCommit uses agreed := by
    rcases asked_cases active uses with ⟨hstate, h⟩ | ⟨hstate, answer, h⟩ | ⟨hstate, answer, h⟩ <;>
      simp [hstate, h]
  refine ⟨hcommitted, ?_, ?_, refusal_reported, fun ending => ?_, fun ending => ?_,
    fun hasked error ending => ?_⟩
  · rcases asked_cases active uses with ⟨hstate, h⟩ | ⟨hstate, answer, h⟩ | ⟨hstate, answer, h⟩ <;>
      simp [hstate, h]
  · rcases asked_cases active uses with ⟨hstate, h⟩ | ⟨hstate, answer, h⟩ | ⟨hstate, answer, h⟩
    · simp [hstate, h]
    · cases answer <;> simp [hstate, h]
    · simp [hstate, h]
  · rw [commit_committedAlready, hcommitted]
  · rw [rollback_rollbackOfCommitted, hcommitted]
  · have hspent : (t.after uses).isActive = false := by simp [isActive, hcommitted.mpr hasked]
    simp [use, answer, leave, settled, hspent]

/-- In every state that a transaction which was begun can come to, it shows as committed exactly if a
commit was asked for. The server agreed to that exactly if it refused none; the call that asked for a
refused commit reports it, and all later ones take the transaction for committed. -/
theorem committed_means_asked {source : Executor} {offer : Except Fault ConnectionId} {t : Transaction}
    (begun : (Transaction.begin source offer).result = .ok t) (uses : List Use) : Told t uses :=
  told (begin_ok begun).2.1 uses

/-- Rows are deleted, and the commit meets a lost connection. -/
def refusedCommit : List Use :=
  [.work [(⟨"DELETE FROM posts", []⟩, .count 3)],
   .commit (some { origin := .connection, message := "connection lost" })]

theorem committed_means_asked_refused :
    ∃ t, (Transaction.begin (.pooled "main") (.ok 7)).result = .ok t ∧
      t.AskedCommit refusedCommit false ∧ (t.after refusedCommit).state = .committed := by
  let t : Transaction := { source := .pooled "main", connection := 7 }
  have begun : (Transaction.begin (.pooled "main") (.ok 7)).result = .ok t := rfl
  have hasked : t.AskedCommit refusedCommit false := .tail _ (.tail _ (.tail _ (.head _)))
  exact ⟨t, begun, hasked, (committed_means_asked begun refusedCommit).committed.mpr ⟨_, hasked⟩⟩

/-- A transaction whose commit was refused shows as committed all the same, and says so when it is to be
committed again. -/
theorem refused_shows_committed :
    ∃ t, (Transaction.begin (.pooled "main") (.ok 7)).result = .ok t ∧
      (t.after refusedCommit).state = .committed ∧ ¬ t.AskedCommit refusedCommit true ∧
      ((t.after refusedCommit).commit none).2.result = .error .committedAlready := by
  let t : Transaction := { source := .pooled "main", connection := 7 }
  refine ⟨t, rfl, rfl, ?_, rfl⟩
  have hlog : t.log refusedCommit = [.openCursor 7, .send 7 ⟨"DELETE FROM posts", []⟩,
      .closeCursor 7, .commit 7 false, .giveBack 7] := rfl
  simp [AskedCommit, hlog, t]

end Transaction

end TableLoom.Database
