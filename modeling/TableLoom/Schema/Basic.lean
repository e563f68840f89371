import TableLoom.Code.Import
import TableLoom.Naming
import TableLoom.Schema.FieldType

/-!
Tables as schemas describe them: fields, indexes and relationships. A fragment is one unit of input;
a table is what all fragments of one name amount to.
-/

namespace TableLoom.Schema

/-- How a field takes part in what is inserted and updated. -/
inductive InputMode where
  | required | optional | autoGenerated
  deriving DecidableEq

namespace InputMode

def all : List InputMode := [required, optional, autoGenerated]

def name : InputMode → String
  | required => "required"
  | optional => "optional"
  | autoGenerated => "auto_generated"

end InputMode

/-- One column of a table. -/
structure Field where
  name : String
  type : FieldType
  /-- Whether the column may hold nothing. This is kept beside the type that says so too. -/
  nullable : Bool := type.nullable
  primaryKey : Bool := false
  unique : Bool := false
  default : Option String := none
  inputMode : InputMode := .required
  redacted : Bool := false
  deriving DecidableEq

namespace Field

/-- The type of a member in emitted source; anything at all needs no mark for nothing. -/
def memberType (f : Field) : String :=
  if f.nullable && f.type.base != .json then s!"Optional[{f.type.base.memberType}]"
  else f.type.base.memberType

/-- Whether the field is asked for when rows are written. -/
def isInput (f : Field) : Bool := f.inputMode != .autoGenerated

def describe (f : Field) : String :=
  s!"<Field {f.name} {f.type.name} {f.inputMode.name}" ++ (if f.primaryKey then " PK>" else ">")

end Field

structure Index where
  name : String
  columns : List String
  unique : Bool := false
  deriving DecidableEq

inductive Cardinality where
  | oneToOne | oneToMany | manyToOne | manyToMany
  deriving DecidableEq

namespace Cardinality

def all : List Cardinality := [oneToOne, oneToMany, manyToOne, manyToMany]

def name : Cardinality → String
  | oneToOne => "one_to_one"
  | oneToMany => "one_to_many"
  | manyToOne => "many_to_one"
  | manyToMany => "many_to_many"

/-- Whether many rows stand at the far end. -/
def isMany : Cardinality → Bool
  | oneToMany | manyToMany => true
  | _ => false

end Cardinality

/-- What happens to a row when the row that it refers to changes. -/
inductive Action where
  | cascade | setNull | setDefault | restrict | noAction
  deriving DecidableEq

namespace Action

def all : List Action := [cascade, setNull, setDefault, restrict, noAction]

def name : Action → String
  | cascade => "CASCADE"
  | setNull => "SET NULL"
  | setDefault => "SET DEFAULT"
  | restrict => "RESTRICT"
  | noAction => "NO ACTION"

end Action

/-- The far end of a relationship. -/
structure Reference where
  table : String
  column : String := "id"
  deriving DecidableEq

/-- A relationship to another table. On the column `id` it is a reverse one: the other table holds
the key that points back. -/
structure Relationship where
  name : Option String := none
  column : String
  references : Reference
  cardinality : Cardinality := .manyToOne
  onDelete : Action := .noAction
  onUpdate : Action := .noAction
  deriving DecidableEq

namespace Relationship

def isReverse (r : Relationship) : Bool := r.column == Naming.reverseColumn
def isMany (r : Relationship) : Bool := r.cardinality.isMany

/-- The member under which the related rows are embedded. -/
def member (r : Relationship) : String :=
  Naming.relationMember r.column r.references.table r.isMany

/-- The column of the other table that is joined. A reverse relationship that names none means the
customary key, `<singular owner>_id`. -/
def foreignColumn (r : Relationship) (owner : String) : String :=
  if r.isReverse && r.references.column == Naming.reverseColumn then Naming.singular owner ++ "_id"
  else r.references.column

def describe (r : Relationship) : String :=
  s!"<Relationship {r.column} ({r.cardinality.name}) → {r.references.table}.{r.references.column}>"

end Relationship

/-- One unit of schema input. -/
structure Fragment where
  table : String
  structName : Option String := none
  fields : List Field := []
  alters : List Field := []
  indexes : List Index := []
  relationships : List Relationship := []
  source : Option String := none
  deriving DecidableEq

def Fragment.describe (f : Fragment) : String :=
  let origin := match f.source with
    | some s => if s.isEmpty then "<memory>" else s
    | none => "<memory>"
  s!"<SchemaFragment {f.table} from {origin} "
    ++ s!"({f.fields.length} fields, {f.alters.length} alters)>"

/-- A whole table. The alters are part of the fields already and kept for reports. -/
structure Table where
  name : String
  structName : Option String := none
  fields : List Field := []
  relationships : List Relationship := []
  indexes : List Index := []
  alters : List Field := []
  deriving DecidableEq

def softDeleteColumn : String := "deleted_at"

namespace Table

/-- The field of a name; of several the last counts. -/
def field? (t : Table) (name : String) : Option Field :=
  t.fields.reverse.find? (·.name == name)

def hasField (t : Table) (name : String) : Bool :=
  (t.field? name).isSome

def fieldNames (t : Table) : List String :=
  t.fields.map (·.name)

/-- The name of the record type: the one chosen, else that of one row of the table. -/
def recordName (t : Table) : String :=
  match t.structName with
  | some s => if s.isEmpty then Naming.pascalSingular t.name else s
  | none => Naming.pascalSingular t.name

/-- The first field of the primary key, else a field called `id`. -/
def primaryKey (t : Table) : Option String :=
  match t.fields.find? (·.primaryKey) with
  | some f => some f.name
  | none => if t.hasField "id" then some "id" else none

def hasSoftDelete (t : Table) : Bool :=
  t.hasField softDeleteColumn

def inputFields (t : Table) : List Field :=
  t.fields.filter Field.isInput

def uniqueInputFields (t : Table) : List Field :=
  t.fields.filter fun f => f.isInput && f.unique

def selectAllSql (t : Table) : String :=
  s!"SELECT {t.name}.* FROM {t.name}"

/-- What the annotations of the members need. -/
def imports (t : Table) : Code.Imports :=
  t.fields.foldl (fun acc f =>
    let acc := match f.type.base.imported with
      | some (m, n) => acc.add m n
      | none => acc
    if f.nullable && f.type.base != .json then acc.add "typing" "Optional" else acc) []

def describe (t : Table) : String :=
  s!"<TableSchema {t.name} ({t.fields.length} fields, {t.indexes.length} indexes, "
    ++ s!"{t.relationships.length} rels)>"

end Table

end TableLoom.Schema
