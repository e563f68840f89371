import TableLoom.Code.Keyword
import TableLoom.Schema.Basic
import TableLoom.Schema.Violation
import TableLoom.Text.Identifier

/-!
The rules for one table among the tables that are known. No rule fails: each lists what breaks it, in
the order of the table's parts.
-/

namespace TableLoom.Schema

/-- The tables that are known by name, with their contents where those could be made out. -/
abbrev Known := List (String × Option Table)

namespace Known

def has (known : Known) (name : String) : Bool :=
  known.any (·.1 == name)

def table? (known : Known) (name : String) : Option Table :=
  (known.lookup name).join

end Known

/-- Names that every record or its module has anyway. -/
def reservedMembers : List String :=
  ["db", "table_name", "select_all_sql", "from_row", "from_base", "to_base", "model_config",
    "model_fields"]

/-- Names that the package has beside the modules of its tables, or its registry module defines. -/
def reservedModules : List String :=
  ["registry", "get_model", "rebuild_models", "BaseModel", "Dict", "List", "QueryBuilder", "Type",
    "MODELS", "QUERIES", "TABLES", "VARIANTS"]

/-- Names that the module of every table imports. -/
def reservedRecords : List String :=
  ["Any", "BaseModel", "ClassVar", "ConfigDict", "Dict", "Field", "List", "Optional",
    "QueryBuilder", "Relation", "Sequence", "UUID"]

/-- Whether a text can stand as a name in the database and in emitted source. -/
def isName (s : String) : Bool :=
  Text.isIdentifier s && !Code.isKeyword s

def startsWith (head s : String) : Bool :=
  head.toList.isPrefixOf s.toList

/-- Whether a member of this name would get in the way of what records have anyway. -/
def isReservedMember (name : String) : Bool :=
  Code.isKeyword name || reservedMembers.contains name || startsWith "_" name
    || startsWith "model_" name

/-- Lists what a test says of each item, given the names of the items before it. -/
def scan {α β : Type} (name : α → String) (test : List String → α → List β) (seen : List String) :
    List α → List β
  | [] => []
  | a :: rest => test seen a ++ scan name test (name a :: seen) rest

namespace Rules

/-- A list with one member, or none. -/
def when (broken : Bool) (v : Violation) : List Violation :=
  if broken then [v] else []

def tableNames (t : Table) : List Violation :=
  if !isName t.name then [.tableName t.name]
  else when (reservedModules.contains t.name || startsWith "_" t.name) (.tableNameTaken t.name)

def fieldNames (t : Table) (f : Field) : List Violation :=
  if !Text.isIdentifier f.name then [.fieldName t.name f.name]
  else when (isReservedMember f.name) (.fieldNameTaken t.name f.name)

def indexNames (t : Table) (seen : List String) (i : Index) : List Violation :=
  when (!Text.isIdentifier i.name) (.indexName t.name i.name)
    ++ when (seen.contains i.name) (.repeatedIndex t.name i.name)

/-- Names of the table, its record, its fields and its indexes. -/
def identifiers (t : Table) (_ : Known) : List Violation :=
  when t.fields.isEmpty (.noFields t.name)
    ++ tableNames t
    ++ when (!isName t.recordName || reservedRecords.contains t.recordName)
      (.recordName t.name t.recordName)
    ++ t.fields.flatMap (fieldNames t)
    ++ scan Index.name (indexNames t) [] t.indexes

def oneField (t : Table) (seen : List String) (f : Field) : List Violation :=
  when (seen.contains f.name) (.repeatedField t.name f.name)
    ++ when (!f.nullable && f.default.isNone && f.inputMode == .optional) (.noDefault t.name f.name)

/-- No field twice, none that can be left out without a default, and a key. -/
def fields (t : Table) (_ : Known) : List Violation :=
  scan Field.name (oneField t) [] t.fields
    ++ when (!t.fields.isEmpty && t.primaryKey.isNone) (.noPrimaryKey t.name)

/-- The columns of every index exist. -/
def indexes (t : Table) (_ : Known) : List Violation :=
  t.indexes.flatMap fun i =>
    let missing := i.columns.filter fun c => !t.hasField c
    when (!missing.isEmpty) (.indexColumns t.name i.name missing)

/-- Whether a table holds a key to the target. -/
def refersTo (junction : Table) (target : String) : Bool :=
  junction.hasField (Naming.singular target ++ "_id")
    || junction.relationships.any fun r => !r.isReverse && r.references.table == target

/-- Whether a table holds a key to some table other than the owner. -/
def refersElsewhere (junction : Table) (owner : String) : Bool :=
  junction.relationships.any (fun r => !r.isReverse && r.references.table != owner)
    || junction.fields.any fun f =>
      Text.endsWith f.name "_id" && f.name != Naming.singular owner ++ "_id"

/-- Whether a table can stand between its owner and another table. -/
def isJunction (junction : Table) (owner : String) : Bool :=
  refersTo junction owner && refersElsewhere junction owner

/-- The rules for a relationship to a known table, given the members so far. -/
def oneRelationship (t : Table) (known : Known) (members : List String) (r : Relationship) :
    List Violation :=
  let target := r.references.table
  when (!t.hasField r.column) (.unknownColumn t.name r.column target)
    ++ (if !isName r.member then [.memberName t.name r.column target r.member]
      else when (members.contains r.member) (.repeatedMember t.name r.column target r.member))
    ++ match r.cardinality, known.table? target with
      | .manyToMany, some junction =>
        when (!isJunction junction t.name) (.noJunction t.name r.column target)
      | _, _ => []

/-- Goes through the relationships; one to an unknown table has no member. -/
def scanRelationships (t : Table) (known : Known) (members : List String) :
    List Relationship → List Violation
  | [] => []
  | r :: rest =>
    if known.has r.references.table then
      oneRelationship t known members r ++ scanRelationships t known (r.member :: members) rest
    else .unknownTable t.name r.column r.references.table :: scanRelationships t known members rest

/-- Relationships lead from existing columns to known tables, under members of their own. -/
def relationships (t : Table) (known : Known) : List Violation :=
  scanRelationships t known t.fieldNames t.relationships

/-- All rules, in the order of their findings. -/
def all : List (Table → Known → List Violation) :=
  [identifiers, fields, indexes, relationships]

end Rules

/-- Everything that is wrong with a table. -/
def Table.violations (t : Table) (known : Known) : List Violation :=
  Rules.all.flatMap fun rule => rule t known

end TableLoom.Schema
