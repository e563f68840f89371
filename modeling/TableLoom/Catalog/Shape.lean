import TableLoom.Catalog.Question
import TableLoom.Schema.Basic
import TableLoom.Text.Case

/-!
Tables as the catalogs describe them.
-/

namespace TableLoom.Catalog

open Statement (Row)
open Schema (Action BaseType FieldType)

/-- The base types that the database's own types stand for; others are kept as text. -/
def typeTable : List (String × BaseType) :=
  [("uuid", .uuid), ("text", .text), ("varchar", .text), ("bpchar", .text), ("char", .text),
    ("citext", .text), ("bool", .boolean), ("int2", .i16), ("int4", .i32), ("int8", .i64),
    ("float4", .f32), ("float8", .f64), ("numeric", .f64), ("timestamp", .timestamp),
    ("timestamptz", .timestamptz), ("json", .json), ("jsonb", .json)]

def fieldType (udt dataType : String) (nullable : Bool) : FieldType :=
  let base := (typeTable.lookup udt).getD 
    (if Text.contains "timestamp" dataType then .timestamp else .text)
  ⟨base, nullable⟩

/-- The action that a rule of the catalogs means, in any case; an unknown rule means none. -/
def actionOf (rule : Option String) : Action :=
  (Action.all.find? (·.name == Text.upper (rule.getD ""))).getD .noAction

structure Column where
  name : String
  dataType : String
  udt : String
  nullable : Bool := false
  default : Option String := none
  identity : Bool := false
  deriving DecidableEq

/-- Parts of default expressions that fill a column with something new. -/
def selfFilling : List String :=
  ["nextval(", "gen_random_uuid(", "uuid_generate_", "now()", "current_timestamp"]

namespace Column

def fieldType (c : Column) : FieldType :=
  Catalog.fieldType c.udt c.dataType c.nullable

/-- Whether the database fills the column by itself. -/
def isAutoGenerated (c : Column) : Bool :=
  c.identity || selfFilling.any (Text.contains · (Text.lower (c.default.getD "")))

end Column

structure ForeignKey where
  name : String
  columns : List String
  table : String
  foreignColumns : List String
  onDelete : Action := .noAction
  onUpdate : Action := .noAction
  deriving DecidableEq

def ForeignKey.isComposite (k : ForeignKey) : Bool := 1 < k.columns.length

structure TableIndex where
  name : String
  columns : List String
  unique : Bool := false
  primary : Bool := false
  deriving DecidableEq

/-- All that the catalogs say of a table. -/
structure Shape where
  name : String
  columns : List Column := []
  primaryKey : List String := []
  uniqueConstraints : List (String × List String) := []
  foreignKeys : List ForeignKey := []
  indexes : List TableIndex := []
  deriving DecidableEq

def Shape.uniqueColumns (s : Shape) : List String :=
  s.uniqueConstraints.filterMap fun (_, columns) =>
    match columns with
    | [c] => some c
    | _ => none

/-- A text under a key; nothing counts as the empty text. -/
def textOr (key : String) (row : Row) : String :=
  match value key row with
  | .null => ""
  | v => if v.truthy then v.display else ""

def isYes (key : String) (row : Row) : Bool :=
  (value key row).asText? == some "YES"

def readColumn (row : Row) : Except PullError Column := do
  return { name := ← need "column_name" row, dataType := textOr "data_type" row
           udt := textOr "udt_name" row, nullable := isYes "is_nullable" row
           default := match value "column_default" row with
             | .null => none
             | v => some v.display
           identity := isYes "is_identity" row }

/-- Adds a name unless it is there. -/
def addOnce (name : String) (names : List String) : List String :=
  if names.contains name then names else names ++ [name]

/-- Changes the entry of a name, which is added at the end when there is none. -/
def changeNamed {α : Type} (name : α → String) (key : String) (new : α) (change : α → α) :
    List α → List α
  | [] => [change new]
  | a :: rest =>
    if name a == key then change a :: rest else a :: changeNamed name key new change rest

/-- Gathers the columns of unique constraints, a row for each column. -/
def addUnique (all : List (String × List String)) (row : Row) :
    Except PullError (List (String × List String)) := do
  let name ← need "constraint_name" row
  let column ← need "column_name" row
  return changeNamed (·.1) name (name, []) (fun (n, columns) => (n, columns ++ [column])) all

/-- Gathers the columns of foreign keys. The first row of a key tells where it leads. -/
def addForeignKey (all : List ForeignKey) (row : Row) : Except PullError (List ForeignKey) := do
  let name ← need "constraint_name" row
  let new : ForeignKey ← match all.find? (·.name == name) with
    | some k => pure k
    | none => do
      let rule (key : String) := actionOf ((value key row).asText?)
      let table ← need "foreign_table_name" row
      pure { name, columns := [], table, foreignColumns := []
             onDelete := rule "delete_rule", onUpdate := rule "update_rule" }
  let column ← need "column_name" row
  let foreign ← need "foreign_column_name" row
  return changeNamed ForeignKey.name name new (fun k =>
    { k with columns := addOnce column k.columns
             foreignColumns := addOnce foreign k.foreignColumns }) all

/-- Gathers the columns of indexes. -/
def addIndex (all : List TableIndex) (row : Row) : Except PullError (List TableIndex) := do
  let name ← need "index_name" row
  let column ← need "column_name" row
  let new : TableIndex :=
    { name, columns := [], unique := (value "is_unique" row).truthy
      primary := (value "is_primary" row).truthy }
  return changeNamed TableIndex.name name new (fun i => { i with columns := i.columns ++ [column] })
    all

/-- Reads all that the catalogs say of a table. -/
def readShape (source : Source) (schema table : String) : Reading Shape := do
  let rows (topic : Topic) : Reading (List Row) := ask source ⟨topic, schema, some table⟩
  let columns ← (← rows .columns).mapM fun r => liftExcept (readColumn r)
  let primaryKey ← (← rows .primaryKey).mapM fun r => liftExcept (need "column_name" r)
  let uniqueConstraints ← (← rows .uniqueConstraints).foldlM
    (fun all r => liftExcept (addUnique all r)) []
  let foreignKeys ← (← rows .foreignKeys).foldlM
    (fun all r => liftExcept (addForeignKey all r)) []
  let indexes ← (← rows .indexes).foldlM (fun all r => liftExcept (addIndex all r)) []
  return { name := table, columns, primaryKey, uniqueConstraints, foreignKeys, indexes }
where
  liftExcept {α : Type} (e : Except PullError α) : Reading α :=
    match e with
    | .ok a => return a
    | .error err => throw err

end TableLoom.Catalog
