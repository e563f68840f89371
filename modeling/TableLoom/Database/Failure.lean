import TableLoom.Text.Quoted
import TableLoom.Value.Basic

/-!
What went wrong in a statement. A fault of the driver is classified by its SQLSTATE when the state is
known, else by whether it concerns the connection; the server's own words are kept.
-/

namespace TableLoom.Database

/-- Kinds of failure. -/
inductive FailureCode where
  | uniqueViolation
  | foreignKeyViolation
  | notNullViolation
  | checkViolation
  | noRowsReturned
  | tooManyRows
  | syntaxError
  | undefinedTable
  | undefinedColumn
  | connectionError
  | databaseError
  | unknown
  deriving DecidableEq

namespace FailureCode

def all : List FailureCode :=
  [uniqueViolation, foreignKeyViolation, notNullViolation, checkViolation, noRowsReturned,
   tooManyRows, syntaxError, undefinedTable, undefinedColumn, connectionError, databaseError,
   unknown]

def name : FailureCode → String
  | uniqueViolation => "unique_violation"
  | foreignKeyViolation => "foreign_key_violation"
  | notNullViolation => "not_null_violation"
  | checkViolation => "check_violation"
  | noRowsReturned => "no_rows_returned"
  | tooManyRows => "too_many_rows"
  | syntaxError => "syntax_error"
  | undefinedTable => "undefined_table"
  | undefinedColumn => "undefined_column"
  | connectionError => "connection_error"
  | databaseError => "database_error"
  | unknown => "unknown"

def ofName? (name : String) : Option FailureCode :=
  all.find? (·.name == name)

def description : FailureCode → String
  | uniqueViolation => "A record with this value already exists"
  | foreignKeyViolation => "Referenced record does not exist"
  | notNullViolation => "A required field was not provided"
  | checkViolation => "Value failed validation constraint"
  | noRowsReturned => "Operation did not affect any records"
  | tooManyRows => "Operation returned more records than expected"
  | syntaxError => "Invalid SQL syntax"
  | undefinedTable => "Table does not exist"
  | undefinedColumn => "Column does not exist"
  | connectionError => "Database connection error"
  | databaseError => "Database error occurred"
  | unknown => "An unexpected error occurred"

/-- The kind that a SQLSTATE names; letters count in upper case only. -/
def ofSqlState? : String → Option FailureCode
  | "23505" => some uniqueViolation
  | "23503" => some foreignKeyViolation
  | "23502" => some notNullViolation
  | "23514" => some checkViolation
  | "42601" => some syntaxError
  | "42P01" => some undefinedTable
  | "42703" => some undefinedColumn
  | _ => none

end FailureCode

/-- What the server says about a failed statement. -/
structure Diagnostics where
  sqlState : Option String := none
  severity : Option String := none
  message : Option String := none
  detail : Option String := none
  hint : Option String := none
  constraint : Option String := none
  table : Option String := none
  schema : Option String := none
  column : Option String := none

/-- What the server says, as data. -/
def Diagnostics.data (d : Diagnostics) : Value :=
  .ofFields ([("sqlstate", d.sqlState), ("severity", d.severity), ("message", d.message),
    ("detail", d.detail), ("hint", d.hint), ("constraint", d.constraint), ("table", d.table),
    ("schema", d.schema), ("column", d.column)].map fun (k, v) => (k, .ofText? v))

/-- Where a fault came from: the driver, with or without a working connection, or elsewhere. -/
inductive FaultOrigin where
  | connection
  | driver
  | elsewhere
  deriving DecidableEq

/-- A fault met while a statement ran. -/
structure Fault where
  origin : FaultOrigin
  message : String
  diagnostics : Diagnostics := {}

/-- A failed statement: the kind, the words, the statement and how many values were bound to it. -/
structure Failure where
  code : FailureCode
  message : String
  sql : String
  paramCount : Int
  diagnostics : Option Diagnostics := none

namespace Failure

def ofFault (fault : Fault) (sql : String) (paramCount : Int) : Failure :=
  match fault.origin with
  | .elsewhere => ⟨.unknown, fault.message, sql, paramCount, none⟩
  | origin =>
    let byState := fault.diagnostics.sqlState.bind FailureCode.ofSqlState?
    let byOrigin := if origin == .connection then .connectionError else .databaseError
    ⟨byState.getD byOrigin, fault.message, sql, paramCount, some fault.diagnostics⟩

/-- A statement that should have returned a row did not. -/
def noRow (sql : String) (paramCount : Int) : Failure :=
  ⟨.noRowsReturned, FailureCode.noRowsReturned.description, sql, paramCount, none⟩

def sqlState (f : Failure) : Option String :=
  f.diagnostics.bind (·.sqlState)

/-- The failure in one line, with the statement and the number of bound values. -/
def text (f : Failure) : String :=
  s!"{f.message} [sql: {f.sql}] [params: {f.paramCount}]"

/-- The failure as data, without what the server adds. -/
def details (f : Failure) : Value :=
  .ofFields [("code", .text f.code.name), ("message", .text f.message), ("sql", .text f.sql),
    ("param_count", .int f.paramCount), ("sqlstate", .ofText? f.sqlState)]

/-- The failure as data, with its words and what the server adds. -/
def data (f : Failure) : Value :=
  .ofFields [("details", f.details), ("description", .text f.code.description),
    ("text", .text f.text), ("pg_error", (f.diagnostics.map Diagnostics.data).getD .null)]

end Failure

/-- The row that a statement returned. -/
def requireRow {α : Type} (row : Option α) (sql : String) (paramCount : Int) : Except Failure α :=
  match row with
  | some r => .ok r
  | none => .error (.noRow sql paramCount)

end TableLoom.Database
