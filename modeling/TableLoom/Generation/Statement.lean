import TableLoom.Schema.Basic

/-!
The fixed statements of a table: what its module keeps as constants.
-/

namespace TableLoom.Schema

/-- The default that stands in for a value left out on insertion. -/
def Field.insertDefault? (f : Field) : Option String :=
  if f.inputMode == .optional then f.default else none

namespace Table

/-- The placeholder of an inserted value, or the default in its stead. -/
def insertCell (n : Nat) (f : Field) : String :=
  match f.insertDefault? with
  | some d => s!"COALESCE(${n}, {d})"
  | none => s!"${n}"

def insertCells (first : Nat) : List Field → List String
  | [] => []
  | f :: rest => insertCell first f :: insertCells (first + 1) rest

/-- The insertion of one row, without what it returns. -/
def insertHead (t : Table) : String :=
  if t.inputFields.isEmpty then s!"INSERT INTO {t.name} DEFAULT VALUES"
  else s!"INSERT INTO {t.name} (" ++ Text.join ", " (t.inputFields.map (·.name)) ++ ") VALUES ("
    ++ Text.join ", " (insertCells 1 t.inputFields) ++ ")"

def insertSql (t : Table) : String :=
  t.insertHead ++ " RETURNING *"

/-- The column that tells whether a row is there already: the first unique one among those that are
written, by its own mark or by an index on it alone. -/
def conflictColumn? (t : Table) : Option String :=
  match t.uniqueInputFields with
  | f :: _ => some f.name
  | [] => t.indexes.findSome? fun i =>
    match i.unique, i.columns with
    | true, [c] => if t.inputFields.any (·.name == c) then some c else none
    | _, _ => none

/-- The insertion that updates the row that is there; the conflicting column is written only when
there is no other. -/
def upsertSql? (t : Table) : Option String :=
  t.conflictColumn?.map fun conflict =>
    let others := (t.inputFields.map (·.name)).filter (· != conflict)
    let updated := if others.isEmpty then [conflict] else others
    t.insertHead ++ s!" ON CONFLICT ({conflict}) DO UPDATE SET "
      ++ Text.join ", " (updated.map fun c => s!"{c} = EXCLUDED.{c}") ++ " RETURNING *"

def keyField? (t : Table) : Option Field :=
  t.primaryKey.bind t.field?

def findSql (t : Table) (key : String) : String :=
  s!"{t.selectAllSql} WHERE {key} = $1"

def findLiveSql (t : Table) (key : String) : String :=
  s!"{t.findSql key} AND deleted_at IS NULL"

def softDeleteSql (t : Table) (key : String) : String :=
  s!"UPDATE {t.name} SET deleted_at = CURRENT_TIMESTAMP WHERE {key} = $1"

def deleteSql (t : Table) (key : String) : String :=
  s!"DELETE FROM {t.name} WHERE {key} = $1"

def truncateSql (t : Table) : String :=
  s!"TRUNCATE TABLE {t.name} RESTART IDENTITY CASCADE"

end Table

def tableExistsSql : String :=
  "SELECT EXISTS (SELECT 1 FROM information_schema.tables WHERE table_name = $1) AS found"

end TableLoom.Schema
