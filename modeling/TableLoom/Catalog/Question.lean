import TableLoom.Database.Failure
import TableLoom.Statement.Write

/-!
The questions that a database's catalogs are asked, and their rows.
-/

namespace TableLoom.Catalog

open Statement (Row)

/-- What is asked. All questions name the schema, and those on one table name the table. -/
inductive Topic where
  | schemaExists | tables | columns | primaryKey | uniqueConstraints | foreignKeys | indexes
  deriving DecidableEq

/-- The tables that constraints and their columns are joined from. -/
def constraintColumns : String :=
  "FROM information_schema.table_constraints tc JOIN information_schema.key_column_usage kcu "
    ++ "ON tc.constraint_name = kcu.constraint_name AND tc.table_schema = kcu.table_schema "

/-- The constraints of one table that are of one sort. -/
def constraintsOf (sort : String) : String :=
  s!"WHERE tc.table_schema = $1 AND tc.table_name = $2 AND tc.constraint_type = '{sort}' "

namespace Topic

def sql : Topic → String
  | schemaExists =>
    "SELECT EXISTS(SELECT 1 FROM information_schema.schemata WHERE schema_name = $1) AS exists"
  | tables =>
    "SELECT table_name FROM information_schema.tables "
      ++ "WHERE table_schema = $1 AND table_type = 'BASE TABLE' ORDER BY table_name"
  | columns =>
    "SELECT column_name, data_type, udt_name, is_nullable, column_default, is_identity "
      ++ "FROM information_schema.columns WHERE table_schema = $1 AND table_name = $2 "
      ++ "ORDER BY ordinal_position"
  | primaryKey =>
    "SELECT kcu.column_name " ++ constraintColumns ++ constraintsOf "PRIMARY KEY"
      ++ "ORDER BY kcu.ordinal_position"
  | uniqueConstraints =>
    "SELECT tc.constraint_name, kcu.column_name " ++ constraintColumns ++ constraintsOf "UNIQUE"
      ++ "ORDER BY tc.constraint_name, kcu.ordinal_position"
  | foreignKeys =>
    "SELECT tc.constraint_name, kcu.column_name, ccu.table_name AS foreign_table_name, "
      ++ "ccu.column_name AS foreign_column_name, rc.delete_rule, rc.update_rule "
      ++ constraintColumns
      ++ "JOIN information_schema.constraint_column_usage ccu "
      ++ "ON tc.constraint_name = ccu.constraint_name AND tc.table_schema = ccu.table_schema "
      ++ "JOIN information_schema.referential_constraints rc "
      ++ "ON tc.constraint_name = rc.constraint_name AND tc.table_schema = rc.constraint_schema "
      ++ constraintsOf "FOREIGN KEY" ++ "ORDER BY tc.constraint_name, kcu.ordinal_position"
  | indexes =>
    "SELECT i.relname AS index_name, a.attname AS column_name, "
      ++ "ix.indisunique AS is_unique, ix.indisprimary AS is_primary FROM pg_catalog.pg_class t "
      ++ "JOIN pg_catalog.pg_index ix ON t.oid = ix.indrelid "
      ++ "JOIN pg_catalog.pg_class i ON ix.indexrelid = i.oid "
      ++ "JOIN pg_catalog.pg_namespace n ON t.relnamespace = n.oid "
      ++ "JOIN pg_catalog.pg_attribute a ON a.attrelid = t.oid AND a.attnum = ANY(ix.indkey) "
      ++ "WHERE n.nspname = $1 AND t.relname = $2 AND t.relkind = 'r' "
      ++ "ORDER BY i.relname, array_position(ix.indkey, a.attnum)"

/-- The name under which a question is known. -/
def name : Topic → String
  | schemaExists => "SCHEMA_EXISTS_SQL"
  | tables => "TABLES_SQL"
  | columns => "COLUMNS_SQL"
  | primaryKey => "PRIMARY_KEY_SQL"
  | uniqueConstraints => "UNIQUE_CONSTRAINTS_SQL"
  | foreignKeys => "FOREIGN_KEYS_SQL"
  | indexes => "INDEXES_SQL"

end Topic

/-- A question as it is sent. -/
structure Question where
  topic : Topic
  schema : String
  table : Option String := none
  deriving DecidableEq

def Question.params (q : Question) : List String :=
  q.schema :: q.table.toList

/-- Why the catalogs yield no tables. -/
inductive PullError where
  | noSchema (schema : String)
  | failed (failure : Database.Failure)
  /-- A row lacks a column that it must have. -/
  | missingKey (key : String)

def PullError.message : PullError → String
  | .noSchema schema => s!"Schema '{schema}' does not exist."
  | .failed f => f.text
  | .missingKey key => Text.quoted key

/-- A database's catalogs: the rows that answer each question. -/
abbrev Source := Question → Except Database.Failure (List Row)

/-- Reading from the catalogs, with the questions asked so far. -/
abbrev Reading (α : Type) := ExceptT PullError (StateM (List Question)) α

def ask (source : Source) (q : Question) : Reading (List Row) := do
  modify (· ++ [q])
  match source q with
  | .ok rows => return rows
  | .error f => throw (.failed f)

/-- The text under a key that every row must have. -/
def need (key : String) (row : Row) : Except PullError String :=
  match Value.find? key row with
  | some v => .ok v.display
  | none => .error (.missingKey key)

def value (key : String) (row : Row) : Value :=
  (Value.find? key row).getD .null

end TableLoom.Catalog
