import TableLoom.Database.Executor

/-!
Transactions: a connection is taken, statements run on it, and it is given back when the transaction is
committed or rolled back, whether or not the server agreed.
-/

namespace TableLoom.Database

inductive TransactionState where
  | active | committed | rolledBack
  deriving DecidableEq

def TransactionState.name : TransactionState → String
  | active => "active"
  | committed => "committed"
  | rolledBack => "rolled_back"

/-- A transaction on a connection that an executor lent. -/
structure Transaction where
  source : Executor
  connection : ConnectionId
  state : TransactionState := .active
  deriving DecidableEq

/-- Why a transaction does not do what it is asked to. -/
inductive TransactionError where
  | committedAlready
  | rolledBackAlready
  /-- What is committed cannot be rolled back. -/
  | rollbackOfCommitted
  /-- A finished transaction runs no statements. -/
  | finished (state : TransactionState)
  | failed (error : RunError)

/-- The words for a refusal; errors of the driver have their own. -/
def TransactionError.message : TransactionError → String
  | .committedAlready => "Transaction was already committed."
  | .rolledBackAlready => "Transaction was already rolled back."
  | .rollbackOfCommitted => "Cannot roll back a committed transaction."
  | .finished s => s!"Transaction is {s.name}; no executor available."
  | .failed (.failed f) => f.text
  | .failed (.passed f) => f.message

namespace Transaction

def isActive (t : Transaction) : Bool := t.state == .active

def describe (t : Transaction) : String :=
  s!"<Transaction {t.state.name}>"

/-- Starts a transaction on a connection of the source. -/
def begin (source : Executor) (offer : Except Fault ConnectionId) : Outcome Fault Transaction :=
  let taken := source.acquire offer
  { events := taken.events, log := taken.log
    result := taken.result.map fun c => { source, connection := c } }

/-- The executor whose statements run inside the transaction. -/
def executor (t : Transaction) : Except TransactionError Executor :=
  if t.isActive then .ok (.bound t.connection true) else .error (.finished t.state)

/-- How the server takes the end of a transaction: `none` when it agrees. -/
abbrev Ending := Option Fault

/-- Ends a transaction and gives its connection back. -/
def finish (t : Transaction) (commit : Bool) (ending : Ending) :
    Transaction × Outcome TransactionError Unit :=
  let asked : Event :=
    if commit then .commit t.connection ending.isNone else .rollback t.connection ending.isNone
  let verb := if commit then "COMMIT" else "ROLLBACK"
  let result := match ending with
    | none => .ok ()
    | some f => .error (.failed (.ofFault f verb 0))
  ({ t with state := if commit then .committed else .rolledBack },
    { events := asked :: t.source.release t.connection, result })

/-- An answer without anything being asked of the connection. -/
def settled (t : Transaction) (result : Except TransactionError Unit) :
    Transaction × Outcome TransactionError Unit :=
  (t, { events := [], result })

def commit (t : Transaction) (ending : Ending) : Transaction × Outcome TransactionError Unit :=
  match t.state with
  | .committed => t.settled (.error .committedAlready)
  | .rolledBack => t.settled (.error .rolledBackAlready)
  | .active => t.finish true ending

/-- Rolls back; a second time nothing happens. -/
def rollback (t : Transaction) (ending : Ending) : Transaction × Outcome TransactionError Unit :=
  match t.state with
  | .rolledBack => t.settled (.ok ())
  | .committed => t.settled (.error .rollbackOfCommitted)
  | .active => t.finish false ending

/-- Leaves the transaction's scope, perhaps because of an error: what is still active is rolled back. -/
def leave (t : Transaction) (error : Option String) (ending : Ending) :
    Transaction × Outcome TransactionError Unit :=
  if t.isActive then
    let (t, outcome) := t.rollback ending
    let note := error.toList.map fun name =>
      Log.warning "transaction" s!"Rolling back transaction after {name}"
    (t, { outcome with log := note ++ outcome.log })
  else t.settled (.ok ())

end Transaction

end TableLoom.Database
