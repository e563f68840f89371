import TableLoom.Query.Builder

/-!
The clauses of a query and what each adds. Arguments arrive as data and are checked from left to
right; a clause that is refused half-way keeps what it had added before.
-/

namespace TableLoom.Query

/-- The options of an include as they were asked for. -/
structure IncludeRequest where
  filter : Value := .null
  params : List Value := []
  orderBy : Value := .null
  limit : Value := .null

inductive Clause where
  | select (fields : List Value)
  | distinct
  | selectAggregate (aggregate column label : Value)
  | selectRaw (sql : Value) (params : List Value)
  | condition (link : Link) (column operator value : Value)
  | rawCondition (link : Link) (sql : Value) (params : List Value)
  | existence (negated : Bool) (query : Option Nat)
  | subquery (column operator : Value) (query : Option Nat)
  | deleted (rows : DeletedRows)
  | join (table left right kind : Value)
  /-- Without options, something stands in their place that is none. -/
  | include_ (relation : Value) (options : Option IncludeRequest)
  | groupBy (columns : List Value)
  | groupByRaw (sql : Value)
  | having (sql : Value) (params : List Value)
  | havingAggregate (aggregate column operator value : Value)
  | orderBy (column direction : Value)
  | orderByRaw (sql : Value)
  | limit (n : Value)
  | offset (n : Value)
  | paginate (page perPage : Value)

/-- The word that a value names in a vocabulary. -/
def readWord {α : Type} (vocabulary : Vocabulary) (all : List α) (name : α → String) (v : Value) :
    Except Fault α :=
  match wordOf? all name v with
  | some a => .ok a
  | none => .error (.unknownWord vocabulary v)

def readOperator : Value → Except Fault Operator :=
  readWord .operator Operator.all Operator.name

def readAggregate : Value → Except Fault Aggregate :=
  readWord .aggregate Aggregate.all Aggregate.name

/-- A whole number that is not negative; yes and no do not count as numbers. -/
def readQuantity (what : Quantity) (v : Value) : Except Fault Int :=
  match v with
  | .int n => if n < 0 then .error (.quantity what v) else .ok n
  | _ => .error (.quantity what v)

/-- A column reference; a bare name has to be a column of the table when its columns are known. -/
def readColumn (b : Binding) (v : Value) : Except Fault String :=
  match v with
  | .text c =>
    if !Text.isColumnReference c then .error (.columnReference v)
    else if !c.toList.contains '.' && !b.columns.isEmpty && !b.columns.contains c then
      .error (.unknownColumn c b.table)
    else .ok c
  | _ => .error (.columnReference v)

/-- A star, or a column reference. -/
def readTarget (b : Binding) (v : Value) : Except Fault String :=
  match v with
  | .text "*" => .ok "*"
  | _ => readColumn b v

/-- Text of the right shape; data of another kind is refused before its shape is looked at. -/
def readShaped (shape : String → Bool) (fault : Value → Fault) (v : Value) : Except Fault String :=
  match v with
  | .text s => if shape s then .ok s else .error (fault v)
  | _ => .error .wrongKind

/-- Whether an item is a question mark. -/
def isMark : Value → Bool
  | .text s => s == "?"
  | _ => false

/-- Raw text with as many question marks as values. Question marks are counted in a list too, but a
list cannot be written. -/
def readRaw (sql : Value) (params : List Value) : Except Fault Phrase :=
  let counted (expected : Nat) (phrase : Phrase) : Except Fault Phrase :=
    if expected == params.length then .ok phrase
    else .error (.placeholders expected params.length sql)
  match sql with
  | .text s => counted (s.toList.count '?') (raw s params)
  | .list items => counted (items.countP isMark) [.unwritable]
  | .bytes _ => .error .wrongKind
  | _ => .error .unsupported

/-- The place of a query, or of what stands instead of one. -/
def embed : Option Nat → Part
  | some id => .query id
  | none => .unwritable

/-- Values in a row, with commas between their slots. -/
def slots : List Value → Phrase
  | [] => []
  | [v] => [.slot v]
  | v :: rest => .slot v :: .text ", " :: slots rest

/-- The values that a membership test lists: items of a list, or keys of a map. -/
def members? : Value → Option (List Value)
  | .list items => some items
  | .map entries => some (entries.map (·.1))
  | _ => none

/-- The right-hand side of a comparison. -/
def comparison (op : Operator) (column : String) (v : Value) : Except Fault Phrase :=
  match op with
  | .isNull | .isNotNull => .ok [.text s!"{column} {op.sql}"]
  | .in_ | .notIn =>
    match members? v with
    | none => .error (.listExpected op column)
    | some [] => .error (.listEmpty op column)
    | some vs => .ok (.text s!"{column} {op.sql} (" :: slots vs ++ [.text ")"])
  | .between | .notBetween =>
    match v with
    | .list [low, high] =>
      .ok [.text s!"{column} {op.sql} ", .slot low, .text " AND ", .slot high]
    | _ => .error (.pairExpected op column)
  | _ =>
    match v with
    | .null => .error (.comparesNothing column)
    | _ => .ok [.text s!"{column} {op.sql} ", .slot v]

def readCondition (b : Binding) (column operator value : Value) : Except Fault Phrase := do
  let op ← readOperator operator
  let column ← readColumn b column
  comparison op column value

def readAlias (label : Value) : Except Fault String :=
  match label with
  | .null => .ok ""
  | v => return " AS " ++ (← readShaped Text.isIdentifier .label v)

def readJoin (table left right kind : Value) : Except Fault String := do
  let kind ← readWord .joinKind JoinKind.all JoinKind.name kind
  let table ← readShaped Text.isIdentifier .tableName table
  let left ← readShaped Text.isColumnReference .joinReference left
  let right ← readShaped Text.isColumnReference .joinReference right
  return s!"{kind.sql} {table} ON {left} = {right}"

def readOptions (r : IncludeRequest) : Except Fault IncludeOptions := do
  let filter ← match r.filter with
    | .null => pure none
    | sql => some <$> readRaw sql r.params
  let limit ← match r.limit with
    | .null => pure none
    | n => some <$> readQuantity .includeLimit n
  return { filter, limit
           orderBy := if r.orderBy.truthy then some r.orderBy.display else none }

def readInclude (b : Binding) (relation : Value) (r : Option IncludeRequest) :
    Except Fault (Relation × IncludeOptions) := do
  match relation with
  | .list _ | .map _ => throw .wrongKind
  | _ => pure ()
  let known := relation.asText?.bind b.relation?
  match known with
  | none =>
    throw (.unknownRelation relation.display b.table
      ((b.relations.map (·.name)).eraseDups.mergeSort (· ≤ ·)))
  | some found =>
    match r with
    | none => throw .unsupported
    | some r => return (found, ← readOptions r)

/-- Adds an include; a relation that is already included keeps its place. -/
def putInclude (r : Relation) (options : IncludeOptions) :
    List (Relation × IncludeOptions) → List (Relation × IncludeOptions)
  | [] => [(r, options)]
  | entry :: rest =>
    if entry.1.name == r.name then (r, options) :: rest else entry :: putInclude r options rest

/-- Adds texts one by one until one is refused. -/
def addEach (read : Value → Except Fault String) (acc : List String) :
    List Value → List String × Option Fault
  | [] => (acc, none)
  | v :: rest =>
    match read v with
    | .ok s => addEach read (acc ++ [s]) rest
    | .error e => (acc, some e)

/-- A selected field: a star is qualified like a column. -/
def readField (b : Binding) (v : Value) : Except Fault String := do
  match v with
  | .text "*" => return b.table ++ ".*"
  | _ => return Naming.qualify b.table (← readColumn b v)

namespace Clauses

/-- Keeps the clauses when the reading failed, and uses what was read otherwise. -/
def after {α : Type} (c : Clauses) (read : Except Fault α) (use : α → Clauses) :
    Clauses × Option Fault :=
  match read with
  | .ok a => (use a, none)
  | .error e => (c, some e)

/-- What a clause adds, and why it was refused if it was. -/
def add (b : Binding) (c : Clauses) : Clause → Clauses × Option Fault
  | .select fields =>
    let (texts, fault) := addEach (readField b) [] fields
    ({ c with selects := c.selects ++ texts.map fun t => [.text t] }, fault)
  | .distinct => ({ c with distinct := true }, none)
  | .selectAggregate aggregate column label =>
    c.after (do
      let agg ← readAggregate aggregate
      let target ← readTarget b column
      return s!"{agg.sql}({target})" ++ (← readAlias label))
      fun t => { c with selects := c.selects ++ [[.text t]] }
  | .selectRaw sql params =>
    c.after (readRaw sql params) fun p => { c with selects := c.selects ++ [p] }
  | .condition link column operator value =>
    c.after (readCondition b column operator value) fun p =>
      { c with conditions := c.conditions ++ [⟨link, p⟩] }
  | .rawCondition link sql params =>
    c.after (readRaw sql params) fun p => { c with conditions := c.conditions ++ [⟨link, p⟩] }
  | .existence negated query =>
    let word := if negated then "NOT EXISTS (" else "EXISTS ("
    ({ c with conditions := c.conditions ++ [⟨.and, [.text word, embed query, .text ")"]⟩] }, none)
  | .subquery column operator query =>
    c.after (do
      let op ← readOperator operator
      if !op.isComparison && !op.isMembership then throw (.subqueryOperator op)
      let column ← readColumn b column
      return [Part.text s!"{column} {op.sql} (", embed query, .text ")"])
      fun p => { c with conditions := c.conditions ++ [⟨.and, p⟩] }
  | .deleted rows => ({ c with deleted := rows }, none)
  | .join table left right kind =>
    c.after (readJoin table left right kind) fun j => { c with joins := c.joins ++ [j] }
  | .include_ relation options =>
    c.after (readInclude b relation options) fun (r, o) =>
      { c with includes := putInclude r o c.includes }
  | .groupBy columns =>
    let (texts, fault) := addEach (readShaped Text.isColumnReference .groupReference) [] columns
    ({ c with groupBy := c.groupBy ++ texts.map .text }, fault)
  | .groupByRaw sql => ({ c with groupBy := c.groupBy ++ [sql] }, none)
  | .having sql params =>
    c.after (readRaw sql params) fun p => { c with havings := c.havings ++ [p] }
  | .havingAggregate aggregate column operator value =>
    c.after (do
      let agg ← readAggregate aggregate
      let op ← readOperator operator
      if !op.isComparison then throw (.havingOperator op)
      let target ← readTarget b column
      return [Part.text s!"{agg.sql}({target}) {op.sql} ", .slot value])
      fun p => { c with havings := c.havings ++ [p] }
  | .orderBy column direction =>
    c.after (do
      let dir ← readWord .direction Direction.all Direction.name direction
      let column ← readShaped Text.isColumnReference .orderReference column
      return s!"{column} {dir.sql}")
      fun t => { c with orderBy := c.orderBy ++ [.text t] }
  | .orderByRaw sql => ({ c with orderBy := c.orderBy ++ [sql] }, none)
  | .limit n => c.after (readQuantity .limit n) fun n => { c with limit := some n }
  | .offset n => c.after (readQuantity .offset n) fun n => { c with offset := some n }
  | .paginate page perPage =>
    c.after (readPage page perPage) fun (first, size) =>
      { c with limit := some size, offset := some ((first - 1) * size) }
where
  /-- Page zero is the first page. -/
  readPage (page perPage : Value) : Except Fault (Int × Int) := do
    let page ← readQuantity .page page
    let size ← readQuantity .perPage perPage
    if size == 0 then throw .pageSize
    return (max page 1, size)

end Clauses

namespace Builder

/-- Adds a clause. Paging is checked before the stage, every other clause after it. -/
def add (b : Builder) (clause : Clause) : Builder × Option Fault :=
  let precheck := match clause with
    | .paginate page perPage => (Clauses.add.readPage page perPage).map fun _ => ()
    | _ => .ok ()
  match precheck with
  | .error e => (b, some e)
  | .ok _ =>
    match b.configure with
    | .error e => (b, some e)
    | .ok b' =>
      let (clauses, fault) := b'.clauses.add b'.binding clause
      ({ b' with clauses }, fault)

end Builder

end TableLoom.Query
