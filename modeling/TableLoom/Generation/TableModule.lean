import TableLoom.Code.Module
import TableLoom.Generation.Config
import TableLoom.Generation.RecordName
import TableLoom.Generation.Statement

/-!
The module of one table: its statements, its record and input classes, the records with relations
loaded, the query class and the functions on its rows.
-/

namespace TableLoom.Generation

open Code (Binding Assignment Literal Line Section RecordClass Function Signature Item)
open Schema (Table Field Relationship)

/-- A relationship whose target is known. -/
structure Resolved where
  relationship : Relationship
  target : Table

/-- A relationship leads to a table that is not there. -/
structure UnknownTable where
  name : String
  deriving DecidableEq

/-- The table of a name; of several the last counts. -/
def findTable (tables : List Table) (name : String) : Except UnknownTable Table :=
  match tables.reverse.find? (·.name == name) with
  | some t => .ok t
  | none => .error ⟨name⟩

/-- Finds the targets of relationships. -/
def resolve (tables : List Table) (rs : List Relationship) : Except UnknownTable (List Resolved) :=
  rs.mapM fun r => (⟨r, ·⟩) <$> findTable tables r.references.table

/-- Adds or replaces an entry of a mapping; a replaced one keeps its place. -/
def putEntry (key value : String) : List (String × String) → List (String × String)
  | [] => [(key, value)]
  | (k, v) :: rest => if k == key then (k, value) :: rest else (k, v) :: putEntry key value rest

namespace TableModule

def constant (name type : String) (value : Literal) : Assignment :=
  ⟨name, some type, value⟩

def sql (name statement : String) : Assignment :=
  constant name "str" (.text statement)

/-- The defaults that stand in for values left out on insertion. -/
def insertDefaults (t : Table) : List (String × String) :=
  t.inputFields.foldl (fun acc f =>
    match f.insertDefault? with
    | some d => putEntry f.name d acc
    | none => acc) []

/-- The statements for the row with a key. -/
def keyConstants (t : Table) (key : String) : List Assignment :=
  (if t.hasSoftDelete then
    [sql "FIND_BY_ID_SQL" (t.findLiveSql key), sql "FIND_BY_ID_WITH_DELETED_SQL" (t.findSql key),
      sql "SOFT_DELETE_SQL" (t.softDeleteSql key)]
  else [sql "FIND_BY_ID_SQL" (t.findSql key)])
    ++ [sql "DELETE_SQL" (t.deleteSql key)]

def constants (t : Table) : List Assignment :=
  [sql "TABLE_NAME" t.name, sql "SELECT_ALL_SQL" t.selectAllSql,
    constant "COLUMNS" "tuple" (.tuple t.fieldNames),
    constant "INPUT_COLUMNS" "tuple" (.tuple (t.inputFields.map (·.name))),
    constant "INSERT_DEFAULTS" "Dict[str, str]" (.mapping (insertDefaults t)),
    sql "INSERT_SQL" t.insertSql]
    ++ (t.keyField?.toList.flatMap fun f => keyConstants t f.name)
    ++ (t.upsertSql?.toList.map (sql "UPSERT_SQL"))
    ++ [sql "TRUNCATE_SQL" t.truncateSql, sql "TABLE_EXISTS_SQL" Schema.tableExistsSql]

/-- A member of the record; hidden ones are kept out of its printed form. -/
def recordMember (f : Field) : Binding :=
  let default :=
    match f.redacted, f.nullable with
    | true, true => some "Field(default=None, repr=False)"
    | true, false => some "Field(repr=False)"
    | false, true => some "None"
    | false, false => none
  ⟨f.name, f.memberType, default⟩

/-- A value to insert; what may be left out or be nothing has nothing for its default. -/
def inputMember (f : Field) : Binding :=
  if f.inputMode == .optional || f.nullable then
    ⟨f.name, Code.optionalOf f.memberType, some "None"⟩
  else ⟨f.name, f.memberType, none⟩

/-- A value to update; every one may be left out. -/
def changeMember (f : Field) : Binding :=
  ⟨f.name, Code.optionalOf f.type.base.memberType, some "None"⟩

def rowBinding : Binding := ⟨"row", "Dict[str, Any]", none⟩
def database : Binding := ⟨"db", "Any", none⟩

def recordClass (t : Table) : RecordClass :=
  { name := t.recordName, base := "BaseModel", doc := s!"Record of table '{t.name}'."
    sections := [
      .settings [⟨"model_config", none, .source "ConfigDict(from_attributes=True)"⟩],
      .settings [constant "table_name" "ClassVar[str]" (.source "TABLE_NAME"),
        constant "select_all_sql" "ClassVar[str]" (.source "SELECT_ALL_SQL")],
      .members (t.fields.map recordMember),
      .method {
        name := "from_row", signature := { receiver := some "cls", positional := [rowBinding] }
        result := t.recordName, ofClass := true
        doc := some "Build a record from a result row, ignoring extra columns."
        body := [{ text := "return cls.model_validate(base_values(cls, row))" }] }] }

/-- A class of values to write that allows no others. -/
def inputClass (name doc : String) (members : List Binding) : RecordClass :=
  { name, base := "BaseModel", doc
    sections := .settings [⟨"model_config", none, .source "ConfigDict(extra=\"forbid\")"⟩]
      :: (if members.isEmpty then [] else [.members members]) }

def createClass (t : Table) : RecordClass :=
  inputClass (t.recordName ++ "Create") s!"Insert input for table '{t.name}'."
    (t.inputFields.map inputMember)

def updateClass (t : Table) : RecordClass :=
  inputClass (t.recordName ++ "Update")
    s!"Partial update input for table '{t.name}'; only set fields are written."
    (t.inputFields.map changeMember)

/-- The type of a loaded relation: perhaps one record, or perhaps a list of them. -/
def relationType (t : Table) (r : Resolved) : String :=
  let target := t.recordReference r.target
  if r.relationship.isMany then s!"Optional[List[{target}]]" else s!"Optional[{target}]"

def relationMember (t : Table) (r : Resolved) : Binding :=
  ⟨r.relationship.member, relationType t r, some "None"⟩

/-- The function that reads a relation from its column. -/
def decoder (r : Relationship) : String :=
  if r.isMany then "decode_many" else "decode_one"

/-- Sets a relation from the column that embeds it. -/
def decodeLine (t : Table) (r : Resolved) : Line :=
  let member := Text.sourceQuoted r.relationship.member
  { text := s!"values[{member}] = {decoder r.relationship}({t.recordReference r.target}, row.get({member}))" }

/-- How a variant is made from a record: with the one relation, or with any. -/
def fromBase (t : Table) (name : String) (rs : List Resolved) : Function :=
  let base : Binding := ⟨"base", t.recordName, none⟩
  match rs with
  | [r] =>
    let member := relationMember t r
    { name := "from_base", result := name, ofClass := true
      signature := { receiver := some "cls", positional := [base, member] }
      body := [{ text := s!"return cls(**base.model_dump(), {member.name}={member.name})" }] }
  | _ =>
    { name := "from_base", result := name, ofClass := true
      signature := { receiver := some "cls", positional := [base]
                     others := some ⟨"relations", "Any", none⟩ }
      body := [{ text := "return cls(**base.model_dump(), **relations)" }] }

def variantDoc (t : Table) : List Resolved → String
  | [r] => s!"'{t.name}' record with the '{r.relationship.member}' relation loaded."
  | _ => s!"'{t.name}' record with every relation loaded."

/-- The record with relations loaded. -/
def variantClass (t : Table) (name : String) (rs : List Resolved) : RecordClass :=
  let record := t.recordName
  { name, base := record, doc := variantDoc t rs
    sections := [
      .members (rs.map (relationMember t)),
      .method (fromBase t name rs),
      .method {
        name := "to_base", signature := { receiver := some "self" }, result := record
        body := [{ text :=
          s!"return {record}.model_validate(self.model_dump(include=set({record}.model_fields)))" }] },
      .method {
        name := "from_row", signature := { receiver := some "cls", positional := [rowBinding] }
        result := name, ofClass := true
        doc := some
          "Decode base columns and the jsonb relation columns; bad relation data becomes None."
        body := { text := s!"values: Dict[str, Any] = base_values({record}, row)" }
          :: rs.map (decodeLine t) ++ [{ text := "return cls.model_validate(values)" }] }] }

/-- A flag as emitted source writes it. -/
def flag (b : Bool) : String :=
  if b then "True" else "False"

/-- A relation as the query class describes it. -/
def relationEntry (t : Table) (r : Relationship) : String :=
  let member := Text.sourceQuoted r.member
  let texts := [r.references.table, r.column, r.foreignColumn t.name].map Text.sourceQuoted
  s!"{member}: Relation({member}, " ++ Text.join ", " texts ++ s!", many={flag r.isMany})"

/-- Entries between braces, on lines of their own when there are any. -/
def braces (items : List String) : Literal :=
  if items.isEmpty then .source "\x7b\x7d" else .listing "\x7b" "\x7d" items

def queryClass (t : Table) (variants : List Relationship) : RecordClass :=
  let set (name : String) (value : Literal) : Assignment := ⟨name, none, value⟩
  let variantEntry (r : Relationship) := Text.sourceQuoted r.member ++ s!": {t.variantName r}"
  { name := t.recordName ++ "Query", base := "QueryBuilder"
    doc := s!"Query builder bound to table '{t.name}'."
    sections := [.settings ([set "table_name" (.source "TABLE_NAME"),
        set "columns" (.source "COLUMNS"), set "select_all_sql" (.source "SELECT_ALL_SQL"),
        set "soft_delete" (.source (flag t.hasSoftDelete)),
        set "record_type" (.source t.recordName),
        set "relations" (braces (t.relationships.map (relationEntry t)))]
      ++ if variants.isEmpty then [] else
        [set "relation_variants" (braces (variants.map variantEntry)),
          set "all_relations_variant" (.source t.allRelationsName)])] }

/-- All classes of the module. The records with relations loaded are there when it has relations. -/
def classes (t : Table) (variants : List Resolved) : List RecordClass :=
  let loaded := if variants.isEmpty then []
    else variants.map (fun r => variantClass t (t.variantName r.relationship) [r])
      ++ [variantClass t t.allRelationsName variants]
  [recordClass t, createClass t, updateClass t] ++ loaded
    ++ [queryClass t (variants.map (·.relationship))]

end TableModule

end TableLoom.Generation
