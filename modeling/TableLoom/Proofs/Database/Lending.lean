import TableLoom.Database.Transaction

/-!
The connection that a transaction borrows. Whatever is done with the transaction, in whatever order and
however the server answers, its end is asked for at most once, and its connection goes back exactly when
it has ended: not before, not twice, and at the latest when the block is left.
-/

namespace TableLoom.Database

open Statement (Bound)

namespace Event

/-- Whether the end of a transaction is asked for. -/
def isEnding : Event → Bool
  | commit .. | rollback .. => true
  | _ => false

/-- The connection that is taken from its source. -/
def taken? : Event → Option ConnectionId
  | take c => some c
  | _ => none

/-- The connection that goes back to its source. -/
def returned? : Event → Option ConnectionId
  | giveBack c => some c
  | _ => none

end Event

/-- The connections that change hands when an executor lends one: its own it does not give away. -/
def Executor.lent (e : Executor) (c : ConnectionId) : List ConnectionId :=
  match e with
  | pooled _ => [c]
  | bound .. => []

/-- Whatever the pool offers, a statement runs on the connection that its executor is bound to. -/
theorem Executor.events_run_bound (c : ConnectionId) (inTransaction : Bool)
    (offer : Except Fault ConnectionId) (st : Bound) (reply : Reply) :
    ((bound c inTransaction).run offer st reply).events = [.openCursor c, .send c st, .closeCursor c] := by
  cases reply <;> rfl

namespace Transaction

/-- What can be done with a transaction. Endings and replies are as the server has them. -/
inductive Use where
  | commit (ending : Ending)
  | rollback (ending : Ending)
  /-- The executor is asked for, and statements run through it. -/
  | work (statements : List (Bound × Reply))
  /-- The block that the transaction was begun for ends, perhaps because of an error. -/
  | leave (error : Option String) (ending : Ending)

/-- The transaction afterwards, and what was asked of the connection and its source. -/
def use (t : Transaction) : Use → Transaction × List Event
  | .commit ending => ((t.commit ending).1, (t.commit ending).2.events)
  | .rollback ending => ((t.rollback ending).1, (t.rollback ending).2.events)
  | .work statements =>
    match t.executor with
    | .error _ => (t, [])
    | .ok e => (t, statements.flatMap fun (st, reply) => (e.run (.ok t.connection) st reply).events)
  | .leave error ending => ((t.leave error ending).1, (t.leave error ending).2.events)

def after (t : Transaction) (uses : List Use) : Transaction :=
  uses.foldl (fun t u => (t.use u).1) t

/-- Everything that uses ask for, in order. -/
def log (t : Transaction) : List Use → List Event
  | [] => []
  | u :: rest => (t.use u).2 ++ (t.use u).1.log rest

/-- Statements run on the transaction's own connection. They neither end it nor give it back. -/
def Quiet (t : Transaction) (events : List Event) : Prop :=
  ∀ e ∈ events, e = .openCursor t.connection ∨ (∃ st, e = .send t.connection st) ∨
    e = .closeCursor t.connection

/-- The end of the transaction is asked for, whether or not the server agrees. -/
def Ends (t : Transaction) (e : Event) : Prop :=
  ∃ agreed, e = .commit t.connection agreed ∨ e = .rollback t.connection agreed

/-- What one use of a transaction does. -/
inductive Turn (t : Transaction) : Transaction → List Event → Prop
  | working {events : List Event} (active : t.state = .active) (quiet : t.Quiet events) :
      Turn t t events
  | ended (spent : t.state ≠ .active) : Turn t t []
  | settled (state : TransactionState) {e : Event} (active : t.state = .active)
      (spent : state ≠ .active) (ends : t.Ends e) :
      Turn t { t with state } (e :: t.source.release t.connection)

section

variable {t : Transaction}

theorem Quiet.append {xs ys : List Event} (hx : t.Quiet xs) (hy : t.Quiet ys) : t.Quiet (xs ++ ys) :=
  List.forall_mem_append.mpr ⟨hx, hy⟩

theorem Quiet.countP_isEnding {events : List Event} (h : t.Quiet events) :
    events.countP Event.isEnding = 0 := by
  refine List.countP_eq_zero.mpr fun e he => ?_
  rcases h e he with rfl | ⟨st, rfl⟩ | rfl <;> exact Bool.false_ne_true

theorem Quiet.filterMap_returned? {events : List Event} (h : t.Quiet events) :
    events.filterMap Event.returned? = [] := by
  refine List.filterMap_eq_nil_iff.mpr fun e he => ?_
  rcases h e he with rfl | ⟨st, rfl⟩ | rfl <;> rfl

theorem quiet_run (t : Transaction) (offer : Except Fault ConnectionId) (st : Bound) (reply : Reply) :
    t.Quiet ((Executor.bound t.connection true).run offer st reply).events := by
  rw [Executor.events_run_bound]
  simp [Quiet]

theorem turn_finish (active : t.state = .active) (commit : Bool) (ending : Ending) :
    t.Turn (t.finish commit ending).1 (t.finish commit ending).2.events := by
  cases commit with
  | true => exact .settled .committed active (by decide) ⟨_, .inl rfl⟩
  | false => exact .settled .rolledBack active (by decide) ⟨_, .inr rfl⟩

theorem turn_commit (t : Transaction) (ending : Ending) :
    t.Turn (t.commit ending).1 (t.commit ending).2.events := by
  unfold Transaction.commit
  cases hstate : t.state with
  | active => exact turn_finish hstate true ending
  | committed => exact .ended (by simp [hstate])
  | rolledBack => exact .ended (by simp [hstate])

theorem turn_rollback (t : Transaction) (ending : Ending) :
    t.Turn (t.rollback ending).1 (t.rollback ending).2.events := by
  unfold Transaction.rollback
  cases hstate : t.state with
  | active => exact turn_finish hstate false ending
  | committed => exact .ended (by simp [hstate])
  | rolledBack => exact .ended (by simp [hstate])

theorem turn_leave (t : Transaction) (error : Option String) (ending : Ending) :
    t.Turn (t.leave error ending).1 (t.leave error ending).2.events := by
  unfold leave
  split
  · exact turn_rollback t ending
  · next hspent => exact .ended (by simpa [isActive] using hspent)

theorem turn_use (t : Transaction) (u : Use) : t.Turn (t.use u).1 (t.use u).2 := by
  cases u with
  | commit ending => exact turn_commit t ending
  | rollback ending => exact turn_rollback t ending
  | leave error ending => exact turn_leave t error ending
  | work statements =>
      unfold use executor
      by_cases hactive : t.state = .active
      · simp only [isActive, hactive, beq_self_eq_true, ↓reduceIte]
        refine .working hactive fun e he => ?_
        obtain ⟨⟨st, reply⟩, -, he⟩ := List.mem_flatMap.mp he
        exact quiet_run t _ st reply e he
      · simp only [isActive, hactive, beq_iff_eq, ↓reduceIte]
        exact .ended hactive

theorem after_append (t : Transaction) (uses later : List Use) :
    t.after (uses ++ later) = (t.after uses).after later :=
  List.foldl_append

theorem log_append (t : Transaction) (uses later : List Use) :
    t.log (uses ++ later) = t.log uses ++ (t.after uses).log later := by
  induction uses generalizing t with
  | nil => rfl
  | cons u rest ih => rw [List.cons_append, log, ih, log, List.append_assoc]; rfl

theorem spent_stays (spent : t.state ≠ .active) (uses : List Use) :
    t.after uses = t ∧ t.log uses = [] := by
  induction uses with
  | nil => exact ⟨rfl, rfl⟩
  | cons u rest ih =>
      have hturn := turn_use t u
      rw [after, List.foldl_cons, log]
      generalize t.use u = next at hturn
      obtain ⟨t', events⟩ := next
      cases hturn with
      | working active _ => exact absurd active spent
      | ended _ => exact ih
      | settled _ active _ _ => exact absurd active spent

/-- As long as the transaction is active only statements run. Then it ends, its connection goes back,
and nothing follows. -/
theorem log_cases (active : t.state = .active) (uses : List Use) :
    ∃ work, t.Quiet work ∧
      (t.after uses = t ∧ t.log uses = work ∨
        ∃ state e, state ≠ .active ∧ t.Ends e ∧ t.after uses = { t with state } ∧
          t.log uses = work ++ e :: t.source.release t.connection) := by
  -- An active transaction is the same after statements, so the hypothesis applies to it as it stands.
  induction uses with
  | nil => exact ⟨[], by simp [Quiet], .inl ⟨rfl, rfl⟩⟩
  | cons u rest ih =>
      have hturn := turn_use t u
      rw [after, List.foldl_cons, log]
      generalize t.use u = next at hturn
      obtain ⟨t', events⟩ := next
      cases hturn with
      | ended spent => exact absurd active spent
      | working _ quiet =>
          obtain ⟨work, hwork, ⟨hafter, hlog⟩ | ⟨state, e, hspent, hends, hafter, hlog⟩⟩ := ih
          · exact ⟨events ++ work, quiet.append hwork, .inl ⟨hafter, congrArg (events ++ ·) hlog⟩⟩
          · refine ⟨events ++ work, quiet.append hwork, .inr ⟨state, e, hspent, hends, hafter, ?_⟩⟩
            rw [List.append_assoc]
            exact congrArg (events ++ ·) hlog
      | @settled state e _ hspent hends =>
          obtain ⟨hafter, hlog⟩ := spent_stays (t := { t with state }) hspent rest
          refine ⟨[], by simp [Quiet], .inr ⟨state, e, hspent, hends, hafter, ?_⟩⟩
          exact (congrArg (_ ++ ·) hlog).trans (List.append_nil _)

end

/-- What a transaction has asked for and where it stands. -/
structure Account (source : Executor) (t : Transaction) (uses : List Use) : Prop where
  /-- Its end was asked for once if it has ended, and never before. -/
  ended : (t.log uses).countP Event.isEnding = if (t.after uses).isActive then 0 else 1
  /-- The connection was given back once if the transaction has ended, and never before. -/
  returned : (t.log uses).filterMap Event.returned? =
    if (t.after uses).isActive then [] else source.lent t.connection
  /-- From any source, the last thing asked for was to end and to take the connection back. -/
  last : ∃ work, t.Quiet work ∧ ((t.after uses).isActive = true ∧ t.log uses = work ∨
    (t.after uses).isActive = false ∧
      ∃ e, t.Ends e ∧ t.log uses = work ++ e :: source.release t.connection)

theorem filterMap_release (source : Executor) (c : ConnectionId) :
    (source.release c).filterMap Event.returned? = source.lent c ∧
      (source.release c).countP Event.isEnding = 0 := by
  cases source <;> exact ⟨rfl, rfl⟩

theorem account {t : Transaction} (active : t.state = .active) (uses : List Use) :
    Account t.source t uses := by
  obtain ⟨work, hwork, ⟨hafter, hlog⟩ | ⟨state, e, hspent, hends, hafter, hlog⟩⟩ :=
    log_cases active uses
  · have hactive : (t.after uses).isActive = true := by simp [hafter, isActive, active]
    refine ⟨?_, ?_, work, hwork, .inl ⟨hactive, hlog⟩⟩
    · rw [hlog, hwork.countP_isEnding, if_pos hactive]
    · rw [hlog, hwork.filterMap_returned?, if_pos hactive]
  · have hover : (t.after uses).isActive = false := by simp [hafter, isActive, hspent]
    obtain ⟨hreturned, hended⟩ := filterMap_release t.source t.connection
    have he : e.isEnding = true ∧ e.returned? = none := by
      obtain ⟨agreed, rfl | rfl⟩ := hends <;> exact ⟨rfl, rfl⟩
    refine ⟨?_, ?_, work, hwork, .inr ⟨hover, e, hends, hlog⟩⟩
    · rw [hlog, List.countP_append, hwork.countP_isEnding, List.countP_cons, hended, he.1, hover]
      rfl
    · rw [hlog, List.filterMap_append, hwork.filterMap_returned?, List.filterMap_cons, he.2, hover]
      exact hreturned

theorem begin_ok {source : Executor} {offer : Except Fault ConnectionId} {t : Transaction}
    (begun : (Transaction.begin source offer).result = .ok t) :
    t.source = source ∧ t.state = .active ∧
      (Transaction.begin source offer).events.filterMap Event.taken? = source.lent t.connection := by
  cases source with
  | bound c inTransaction =>
      obtain rfl := Except.ok.inj begun
      exact ⟨rfl, rfl, rfl⟩
  | pooled pool =>
      cases offer with
      | error f => cases begun
      | ok c =>
          obtain rfl := Except.ok.inj begun
          exact ⟨rfl, rfl, rfl⟩

theorem leave_spent (t : Transaction) (error : Option String) (ending : Ending) :
    (t.leave error ending).1.isActive = false := by
  unfold leave
  cases hstate : t.state <;> simp [isActive, hstate, rollback, finish, settled]

/-- A transaction that was begun asks for its end at most once, and then its connection, which was taken
once, is given back once: whatever is done with it, and however the server answers. When it has ended it
stays as it is and asks for nothing more, and it has ended at the latest when its block is left. -/
theorem connection_given_back_once {source : Executor} {offer : Except Fault ConnectionId}
    {t : Transaction} (begun : (Transaction.begin source offer).result = .ok t) (uses : List Use) :
    (Transaction.begin source offer).events.filterMap Event.taken? = source.lent t.connection ∧
    Account source t uses ∧
    ((t.after uses).state ≠ .active → ∀ later,
      t.after (uses ++ later) = t.after uses ∧ t.log (uses ++ later) = t.log uses) ∧
    ∀ error ending, (t.after (uses ++ [.leave error ending])).isActive = false ∧
      (t.log (uses ++ [.leave error ending])).filterMap Event.returned? = source.lent t.connection := by
  obtain ⟨rfl, hactive, htaken⟩ := begin_ok begun
  refine ⟨htaken, account hactive uses, fun spent later => ?_, fun error ending => ?_⟩
  · obtain ⟨hafter, hlog⟩ := spent_stays spent later
    rw [after_append, log_append, hafter, hlog, List.append_nil]
    exact ⟨rfl, rfl⟩
  · have hover : (t.after (uses ++ [.leave error ending])).isActive = false := by
      rw [after_append]
      exact leave_spent (t.after uses) error ending
    refine ⟨hover, ?_⟩
    rw [(account hactive _).returned, hover]
    rfl

/-- A block in which the commit fails, and what was raised passes through. -/
def failedCommit : List Use :=
  [.work [(⟨"DELETE FROM posts", []⟩, .count 3)],
   .commit (some { origin := .connection, message := "connection lost" }),
   .work [(⟨"SELECT 1", []⟩, .rows [])], .leave (some "QueryError") none]

theorem connection_given_back_once_failed :
    ∃ t, (Transaction.begin (.pooled "main") (.ok 7)).result = .ok t ∧
      (t.after failedCommit).state = .committed ∧
      (t.log failedCommit).countP Event.isEnding = 1 ∧
      (t.log failedCommit).filterMap Event.returned? = [7] := by
  let t : Transaction := { source := .pooled "main", connection := 7 }
  have begun : (Transaction.begin (.pooled "main") (.ok 7)).result = .ok t := rfl
  obtain ⟨-, haccount, -, -⟩ := connection_given_back_once begun failedCommit
  exact ⟨t, begun, rfl, haccount.ended, haccount.returned⟩

end Transaction

end TableLoom.Database
