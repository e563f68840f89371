import TableLoom.Database.Failure
import TableLoom.Log
import TableLoom.Statement.Write

/-!
Running statements. A pool lends a connection for one statement; a bound executor keeps to its own.
What connections and pool are asked to do is recorded in order.
-/

namespace TableLoom.Database

open Statement (Row Bound)

/-- The name of a connection among all that a pool has. -/
abbrev ConnectionId := Nat

/-- Something asked of a connection or of the pool. Ends of transactions say whether they succeeded. -/
inductive Event where
  | enterScope (c : ConnectionId)
  | leaveScope (c : ConnectionId)
  | take (c : ConnectionId)
  | giveBack (c : ConnectionId)
  | openCursor (c : ConnectionId)
  | closeCursor (c : ConnectionId)
  | send (c : ConnectionId) (statement : Bound)
  | commit (c : ConnectionId) (succeeded : Bool)
  | rollback (c : ConnectionId) (succeeded : Bool)

/-- How the server answers a statement. -/
inductive Reply where
  | rows (rs : List Row)
  /-- No result set, but a number of rows that the statement touched. -/
  | count (n : Int)
  | fault (f : Fault)

/-- Rows, and how many the statement touched. -/
structure Result where
  count : Int
  rows : List Row

/-- Why a statement or the end of a transaction failed. -/
inductive RunError where
  /-- The driver reported a fault. -/
  | failed (f : Failure)
  /-- A fault from elsewhere, passed on as it is. -/
  | passed (f : Fault)

/-- The error that a fault amounts to for a statement. -/
def RunError.ofFault (f : Fault) (sql : String) (paramCount : Nat) : RunError :=
  match f.origin with
  | .elsewhere => .passed f
  | _ => .failed (.ofFault f sql paramCount)

/-- An action with what it asked of connections and what it noted. -/
structure Outcome (ε α : Type) where
  events : List Event
  log : List Log.Entry := []
  result : Except ε α

inductive Executor where
  | pooled (pool : String)
  | bound (c : ConnectionId) (inTransaction : Bool)
  deriving DecidableEq

namespace Executor

def isTransaction : Executor → Bool
  | pooled _ => false
  | bound _ inTransaction => inTransaction

def describe : Executor → String
  | pooled pool => s!"<PoolExecutor {pool}>"
  | bound _ inTransaction =>
    "<ConnectionExecutor transaction=" ++ (if inTransaction then "True>" else "False>")

/-- The connection that a statement would run on: a bound executor's own, or what the pool offers. -/
def connection (e : Executor) (offer : Except Fault ConnectionId) : Except Fault ConnectionId :=
  match e with
  | pooled _ => offer
  | bound c _ => .ok c

/-- What surrounds a statement on a connection of the pool; a failure ends the scope silently. -/
def inScope (e : Executor) (c : ConnectionId) (succeeded : Bool) (events : List Event) :
    List Event :=
  match e with
  | pooled _ => .enterScope c :: events ++ if succeeded then [.leaveScope c] else []
  | bound .. => events

/-- The note on a failed statement. -/
def failureLog : RunError → List Log.Entry
  | .failed f => [Log.error "executor" s!"Query failed ({f.code.name}): {f.message}"]
  | .passed _ => []

/-- Runs a statement, given what the pool offers and how the server replies. -/
def run (e : Executor) (offer : Except Fault ConnectionId) (statement : Bound) (reply : Reply) :
    Outcome RunError Result :=
  let error (f : Fault) := RunError.ofFault f statement.sql statement.params.length
  match e.connection offer with
  | .error f => { events := [], log := failureLog (error f), result := .error (error f) }
  | .ok c =>
    let events : List Event := [.openCursor c, .send c statement, .closeCursor c]
    match reply with
    | .fault f =>
      { events := e.inScope c false events, log := failureLog (error f), result := .error (error f) }
    | .rows rs => { events := e.inScope c true events, result := .ok ⟨rs.length, rs⟩ }
    | .count n => { events := e.inScope c true events, result := .ok ⟨n, []⟩ }

/-- Takes a connection for as long as it is needed. -/
def acquire (e : Executor) (offer : Except Fault ConnectionId) : Outcome Fault ConnectionId :=
  match e, e.connection offer with
  | pooled _, .ok c => { events := [.take c], result := .ok c }
  | bound .., .ok c => { events := [], result := .ok c }
  | _, .error f => { events := [], result := .error f }

/-- Gives a connection back. -/
def release (e : Executor) (c : ConnectionId) : List Event :=
  match e with
  | pooled _ => [.giveBack c]
  | bound .. => []

end Executor

end TableLoom.Database
