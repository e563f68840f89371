import TableLoom.Generation.TableModule

/-!
The functions of a table's module: they insert, find, change and remove rows.
-/

namespace TableLoom.Generation.TableModule

open Code (Binding Line Function Signature)
open Schema (Table Field)

def line (s : String) : Line := { text := s }

def maybeRecord (t : Table) : String := s!"Optional[{t.recordName}]"
def recordList (t : Table) : String := s!"List[{t.recordName}]"
def keyBinding (key : Field) : Binding := ⟨key.name, key.type.base.memberType, none⟩
def withDeleted : Binding := ⟨"include_deleted", "bool", some "False"⟩

/-- The row that may have been found, as a record. -/
def returnMaybe (t : Table) : Line :=
  line s!"return {t.recordName}.from_row(row) if row is not None else None"

/-- A function that takes every value to insert by its name. -/
def writing (t : Table) (name statement doc : String) : Function :=
  let inputs := t.inputFields
  { name, result := t.recordName, doc := some doc
    signature := { positional := [database], named := inputs.map inputMember }
    body := [
      line (s!"params: List[Any] = [" ++ Text.join ", " (inputs.map (·.name)) ++ "]"),
      line s!"row: Dict[str, Any] = require_row(db.query_one({statement}, params), {statement}, len(params))",
      line s!"return {t.recordName}.from_row(row)"] }

def query (t : Table) : Function :=
  { name := "query", signature := {}, result := t.recordName ++ "Query"
    doc := some s!"Start a query on table '{t.name}'."
    body := [line s!"return {t.recordName}Query()"] }

def insert (t : Table) : Function :=
  writing t "insert" "INSERT_SQL" "Insert one row and return it, generated columns included."

def insertMany (t : Table) : Function :=
  { name := "insert_many", result := recordList t
    signature := { positional := [database, ⟨"rows", "Sequence[Any]", none⟩] }
    doc := some
      s!"Insert several rows in one statement; rows are {t.recordName}Create or mappings."
    body := [
      line s!"payload: List[Dict[str, Any]] = [{t.recordName}Create.model_validate(r).model_dump() for r in rows]",
      line "sql, params = build_insert_many(TABLE_NAME, INPUT_COLUMNS, payload, INSERT_DEFAULTS)",
      line s!"return [{t.recordName}.from_row(row) for row in db.query(sql, params)]"] }

def findById (t : Table) (key : Field) : Function :=
  if t.hasSoftDelete then
    { name := "find_by_id", result := maybeRecord t
      signature := { positional := [database, keyBinding key, withDeleted] }
      doc := some "Fetch one row by primary key; soft-deleted rows only on request."
      body := [
        line "sql: str = FIND_BY_ID_WITH_DELETED_SQL if include_deleted else FIND_BY_ID_SQL",
        line s!"row: Optional[Dict[str, Any]] = db.query_one(sql, [{key.name}])",
        returnMaybe t] }
  else
    { name := "find_by_id", result := maybeRecord t
      signature := { positional := [database, keyBinding key] }
      doc := some "Fetch one row by primary key."
      body := [
        line s!"row: Optional[Dict[str, Any]] = db.query_one(FIND_BY_ID_SQL, [{key.name}])",
        returnMaybe t] }

/-- A function that runs a query on the live rows, or on all where deleted rows are only marked. -/
def running (t : Table) (name method result : String) : Function :=
  if t.hasSoftDelete then
    { name, result, signature := { positional := [database, withDeleted] }
      body := [line
        s!"return (query().with_deleted() if include_deleted else query()).{method}(db)"] }
  else
    { name, result, signature := { positional := [database] }
      body := [line s!"return query().{method}(db)"] }

def findAll (t : Table) : Function :=
  running t "find_all" "fetch" (recordList t)

def update (t : Table) (key : Field) : Function :=
  { name := "update", result := maybeRecord t
    signature := { positional := [database, keyBinding key]
                   others := some ⟨"changes", "Any", none⟩ }
    doc := some "Write only the supplied columns; None when no row matched."
    body := [
      line s!"values: Dict[str, Any] = {t.recordName}Update.model_validate(changes).model_dump(exclude_unset=True)",
      line (s!"sql, params = build_update(TABLE_NAME, " ++ Text.sourceQuoted key.name
        ++ s!", {key.name}, values, INPUT_COLUMNS)"),
      line "row: Optional[Dict[str, Any]] = db.query_one(sql, params)",
      returnMaybe t] }

/-- A function that runs a statement on the row with a key and gives the number of rows. -/
def onKey (key : Field) (name statement : String) (doc : Option String) : Function :=
  { name, result := "int", signature := { positional := [database, keyBinding key] }, doc
    body := [line s!"return db.execute({statement}, [{key.name}])"] }

def upsert (t : Table) (conflict : String) : Function :=
  writing t "upsert" "UPSERT_SQL" s!"Insert, or update the row with the same '{conflict}'."

def count (t : Table) : Function :=
  running t "count" "count" "int"

def truncate : Function :=
  { name := "truncate", result := "None", signature := { positional := [database] }
    body := [line "db.execute(TRUNCATE_SQL)"] }

def tableExists : Function :=
  { name := "table_exists", result := "bool", signature := { positional := [database] }
    body := [
      line "row: Optional[Dict[str, Any]] = db.query_one(TABLE_EXISTS_SQL, [TABLE_NAME])",
      line "return bool(row[\"found\"]) if row is not None else False"] }

/-- All functions of a table: those by key only with a key, those that write only with values to
write. -/
def functions (t : Table) : List Function :=
  let key := t.keyField?.toList
  let inputs := !t.inputFields.isEmpty
  [query t, insert t]
    ++ (if inputs then [insertMany t] else [])
    ++ key.map (findById t)
    ++ [findAll t]
    ++ (if inputs then key.map (update t) else [])
    ++ key.flatMap (fun k => onKey k "delete" "DELETE_SQL" none
      :: if t.hasSoftDelete then [onKey k "soft_delete" "SOFT_DELETE_SQL"
          (some "Mark a row deleted by stamping deleted_at.")] else [])
    ++ t.conflictColumn?.toList.map (upsert t)
    ++ [count t, truncate, tableExists]

end TableLoom.Generation.TableModule
