import TableLoom.Query.Fault
import TableLoom.Query.Relation
import TableLoom.Text.Identifier

/-!
A builder gathers the clauses of one query over one table. What it is bound to never changes; the
clauses grow; and its stage says whether clauses are still taken.
-/

namespace TableLoom.Query

/-- A type of record with the operation through which it takes a row. -/
structure RecordType where
  name : String
  reader : String

/-- What a builder is bound to. -/
structure Binding where
  label : String
  table : String
  columns : List String := []
  selectAll : String
  softDelete : Bool := false
  recordType : Option RecordType := none
  relations : List Relation := []
  variants : List (String × RecordType) := []
  allVariant : Option RecordType := none

/-- The relation of a name; of several the last counts. -/
def Binding.relation? (b : Binding) (name : String) : Option Relation :=
  b.relations.reverse.find? (·.name == name)

/-- How conditions are connected. -/
inductive Link where
  | and | or
  deriving DecidableEq

def Link.sql : Link → String
  | .and => "AND"
  | .or => "OR"

structure Condition where
  link : Link
  phrase : Phrase

/-- Which rows a table with soft deletion shows. -/
inductive DeletedRows where
  | hide | show_ | only
  deriving DecidableEq

/-- The clauses gathered so far. -/
structure Clauses where
  selects : List Phrase := []
  distinct : Bool := false
  joins : List String := []
  includes : List (Relation × IncludeOptions) := []
  conditions : List Condition := []
  deleted : DeletedRows := .hide
  /-- What to group by. Only texts can be written. -/
  groupBy : List Value := []
  havings : List Phrase := []
  /-- What to order by. Only texts can be written. -/
  orderBy : List Value := []
  limit : Option Int := none
  offset : Option Int := none

structure Builder where
  binding : Binding
  clauses : Clauses := {}
  stage : Stage := .unbuilt

namespace Builder

/-- The default projection of a table. -/
def selectAllOf (table : String) : String :=
  s!"SELECT {table}.* FROM {table}"

/-- A new builder: a table named on its own replaces that of the binding, and its projection. -/
def make (binding : Binding) (table : Value) : Except Fault Builder :=
  match table with
  | .null =>
    if binding.table.isEmpty || !Text.isIdentifier binding.table then
      .error (.tableName (.text binding.table))
    else
      let selectAll :=
        if binding.selectAll.isEmpty then selectAllOf binding.table else binding.selectAll
      .ok { binding := { binding with selectAll } }
  | .text name =>
    if name.isEmpty || !Text.isIdentifier name then .error (.tableName table)
    else .ok { binding := { binding with table := name, selectAll := selectAllOf name } }
  | v => .error (if v.truthy then .wrongKind else .tableName v)

/-- Takes the builder into the stage in which clauses are added. -/
def configure (b : Builder) : Except Fault Builder :=
  match b.stage with
  | .executed => .error .modifyExecuted
  | .released => .error .modifyReleased
  | _ => .ok { b with stage := .configuring }

/-- Takes the builder into the stage after its statement was sent. -/
def begin_ (b : Builder) : Except Fault Builder :=
  match b.stage with
  | .executed => .error (.execute .executed)
  | .released => .error (.execute .released)
  | _ => .ok { b with stage := .executed }

/-- Forgets the clauses and starts again. -/
def reset (b : Builder) : Except Fault Builder :=
  match b.stage with
  | .released => .error .resetReleased
  | _ => .ok { b with clauses := {}, stage := .unbuilt }

/-- Forgets the clauses for good. -/
def release (b : Builder) : Builder :=
  { b with clauses := {}, stage := .released }

def describe (b : Builder) : String :=
  s!"<{b.binding.label} {b.binding.table} {b.stage.name}>"

end Builder

end TableLoom.Query
