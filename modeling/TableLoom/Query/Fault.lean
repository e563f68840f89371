import TableLoom.Decimal.Numeral
import TableLoom.Query.Vocabulary

/-!
Why a query refuses a clause, a statement or an answer.
-/

namespace TableLoom.Query

/-- The stages of a builder's life. -/
inductive Stage where
  | unbuilt | configuring | executed | released
  deriving DecidableEq

def Stage.name : Stage → String
  | .unbuilt => "unbuilt"
  | .configuring => "configuring"
  | .executed => "executed"
  | .released => "released"

/-- What a count of rows or a page is asked for. -/
inductive Quantity where
  | limit | offset | page | perPage | includeLimit
  deriving DecidableEq

def Quantity.label : Quantity → String
  | .limit => "limit"
  | .offset => "offset"
  | .page => "page"
  | .perPage => "per_page"
  | .includeLimit => "include limit"

inductive Fault where
  | modifyExecuted
  | modifyReleased
  | execute (stage : Stage)
  | resetReleased
  | renderReleased
  | tableName (name : Value)
  | columnReference (ref : Value)
  | unknownColumn (column table : String)
  | unknownWord (vocabulary : Vocabulary) (value : Value)
  | quantity (what : Quantity) (value : Value)
  | label (name : Value)
  | placeholders (expected given : Nat) (sql : Value)
  | listExpected (operator : Operator) (column : String)
  | listEmpty (operator : Operator) (column : String)
  | pairExpected (operator : Operator) (column : String)
  | comparesNothing (column : String)
  | subqueryOperator (operator : Operator)
  | joinReference (ref : Value)
  | unknownRelation (name table : String) (known : List String)
  | groupReference (ref : Value)
  | orderReference (ref : Value)
  | havingOperator (operator : Operator)
  | pageSize
  | deleteNarrowed
  /-- A text or bytes where a whole number is expected. -/
  | notWhole (refusal : Decimal.Refusal) (value : Value)
  | infinite
  | notNumber
  /-- A value of a kind that the clause cannot use at all. -/
  | wrongKind
  /-- A value that lacks what the clause needs of it. -/
  | unsupported
  /-- A result row without columns. -/
  | emptyRow
  /-- A query that embeds itself. -/
  | endless

namespace Fault

/-- The families of faults: the stage, the value given, its size, its kind, the row returned, the
nesting. -/
inductive Family where
  | stage | value | size | kind | support | row | nesting
  deriving DecidableEq

def family : Fault → Family
  | modifyExecuted | modifyReleased | execute _ | resetReleased | renderReleased => .stage
  | infinite => .size
  | wrongKind => .kind
  | unsupported => .support
  | emptyRow => .row
  | endless => .nesting
  | _ => .value

def message : Fault → String
  | modifyExecuted => "Cannot modify a builder in state 'executed'; call reset() first."
  | modifyReleased => "Cannot modify a released builder."
  | execute stage => s!"Cannot execute a builder in state '{stage.name}'."
  | resetReleased => "Cannot reset a released builder."
  | renderReleased => "Cannot render a released builder."
  | tableName name => s!"Invalid table name: {name.literal}"
  | columnReference ref =>
    s!"Invalid column reference {ref.literal}; use a *_raw method for expressions."
  | unknownColumn column table => s!"Unknown column '{column}' for table '{table}'."
  | unknownWord vocabulary value =>
    s!"Unknown {vocabulary.label} {value.literal}; expected one of: "
      ++ Text.join ", " vocabulary.names
  | quantity what value =>
    s!"{what.label} must be a non-negative integer, got {value.literal}"
  | label name => s!"Invalid alias {name.literal}"
  | placeholders expected given sql =>
    s!"Raw fragment has {expected} placeholder(s) but {given} parameter(s): "
      ++ sql.literal
  | listExpected op column =>
    s!"'{op.name}' expects a list of values for column '{column}'."
  | listEmpty op column => s!"'{op.name}' needs at least one value for column '{column}'."
  | pairExpected op column =>
    s!"'{op.name}' expects a (low, high) pair for column '{column}'."
  | comparesNothing column =>
    s!"Cannot compare column '{column}' with None; use is_null/is_not_null."
  | subqueryOperator op => s!"Operator '{op.name}' cannot compare against a subquery."
  | joinReference ref => s!"Invalid join column reference: {ref.literal}"
  | unknownRelation name table known =>
    s!"Unknown relation '{name}' for table '{table}'. Available: " ++ Value.literalTexts known
  | groupReference ref => s!"Invalid column reference {ref.literal}; use group_by_raw."
  | orderReference ref => s!"Invalid column reference {ref.literal}; use order_by_raw."
  | havingOperator op => s!"Operator '{op.name}' is not allowed in having_aggregate."
  | pageSize => "per_page must be positive"
  | deleteNarrowed => "delete() cannot be combined with joins or includes."
  | notWhole refusal v => refusal.message 10 v.literal
  | infinite => "cannot convert float infinity to integer"
  | notNumber => "cannot convert float NaN to integer"
  | wrongKind | unsupported | emptyRow | endless => ""

end Fault

end TableLoom.Query
