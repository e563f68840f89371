import TableLoom.Catalog.Shape
import TableLoom.Schema.Registry
import TableLoom.Yaml.Writer

/-!
Fragments for the tables of a database. A foreign key becomes a relationship of its table, and one of
the table that it leads to; what cannot be expressed is described by a warning.
-/

namespace TableLoom.Catalog

open Schema (Action BaseType Cardinality Field FragmentError Index InputMode Relationship)

/-- Parts of the names of columns whose values are not shown. -/
def secrets : List String := ["password", "secret", "token", "api_key", "private_key"]

/-- A key with a flag, if the flag is set. -/
def flag (key : String) (b : Bool) : List (String × Value) :=
  if b then [(key, .bool true)] else []

/-- How a column takes part in what is written. -/
def inputMode (c : Column) (isKey : Bool) : InputMode :=
  if isKey || c.isAutoGenerated then .autoGenerated
  else if c.nullable || c.default.isSome then .optional
  else .required

def fieldData (t : Shape) (c : Column) : Value :=
  let isKey := t.primaryKey.contains c.name
  .ofFields ([("name", .text c.name), ("type", .text c.fieldType.name)]
    ++ flag "primary_key" isKey
    ++ flag "unique" (!isKey && t.uniqueColumns.contains c.name)
    ++ (c.default.toList.map fun d => ("default", .text d))
    ++ [("input_mode", .text (inputMode c isKey).name)]
    ++ flag "redacted" (secrets.any (Text.contains · c.name)))

/-- The data of the indexes that neither the primary key nor a unique constraint brings along. -/
def indexData (t : Shape) : List Value :=
  let own := t.indexes.filter fun i => !i.primary && !(t.uniqueConstraints.any (·.1 == i.name))
  own.map fun i => .ofFields [("name", .text i.name), ("columns", .texts i.columns),
    ("unique", .bool i.unique)]

/-- A relationship on its way into a fragment. -/
structure Link where
  name : Option String := none
  column : String
  table : String
  target : String
  cardinality : Cardinality
  actions : Option (Action × Action) := none

def firstOf (columns : List String) : String := columns.head?.getD ""

/-- The relationship of a table's own foreign key, or why there is none. -/
def ownLink (t : Shape) (known : List String) (k : ForeignKey) : Except String Link :=
  if k.isComposite then .error s!"{t.name}: composite foreign key '{k.name}' skipped"
  else if !known.contains k.table then
    .error (s!"{t.name}: foreign key '{k.name}' targets '{k.table}', which was not pulled")
  else .ok { name := some k.name, column := firstOf k.columns, table := k.table
             target := firstOf k.foreignColumns, cardinality := .manyToOne
             actions := some (k.onDelete, k.onUpdate) }

/-- The keys of other tables that lead to the column `id` of a table, each with its table. -/
def inward (t : Shape) (tables : List Shape) : List (String × ForeignKey) :=
  let others := tables.filter (·.name != t.name)
  (others.flatMap fun o => o.foreignKeys.map fun k => (o.name, k)).filter fun (_, k) =>
    k.table == t.name && !k.isComposite && firstOf k.foreignColumns == "id"
      && t.columns.any (·.name == "id")

/-- Whether a table is reached by a reverse relationship already. -/
def reaches (links : List Link) (table : String) : Bool :=
  links.any fun l => l.table == table && l.column == "id"

/-- Adds the relationship for a key that leads here, once for every table. -/
def addInward (t : Shape) (acc : List Link × List String) (entry : String × ForeignKey) :
    List Link × List String :=
  let (links, warnings) := acc
  let (other, k) := entry
  let column := firstOf k.columns
  if reaches links other then
    (links, warnings ++
      [s!"{t.name}: extra reverse relationship through '{other}.{column}' skipped"])
  else
    (links ++ [{ column := "id", table := other, target := column, cardinality := .oneToMany }],
      warnings)

/-- All relationships of a table, and what is said of those that could not be made. -/
def links (t : Shape) (tables : List Shape) : List Link × List String :=
  let own := t.foreignKeys.map (ownLink t (tables.map (·.name)))
  let warnings := own.filterMap fun
    | .error w => some w
    | .ok _ => none
  (inward t tables).foldl (addInward t) (own.filterMap Except.toOption, warnings)

def Link.data (l : Link) : Value :=
  .ofFields ((l.name.toList.map fun n => ("name", .text n))
    ++ [("column", .text l.column),
      ("references", .ofFields [("table", .text l.table), ("column", .text l.target)]),
      ("type", .text l.cardinality.name)]
    ++ l.actions.toList.flatMap fun (d, u) =>
      [("on_delete", .text d.name), ("on_update", .text u.name)])

/-- A key with a list, unless it is empty. -/
def unlessEmpty (key : String) (items : List Value) : List (String × Value) :=
  if items.isEmpty then [] else [(key, .list items)]

def fragmentFile (table : String) : String := table ++ ".yaml"

def toFragment (t : Shape) (tables : List Shape) :
    Except FragmentError Schema.Fragment × List String :=
  let (links, warnings) := links t tables
  let data := Value.ofFields ([("table_name", .text t.name),
    ("fields", .list (t.columns.map (fieldData t)))]
    ++ unlessEmpty "indexes" (indexData t)
    ++ unlessEmpty "relationships" (links.map Link.data))
  (Schema.parseFragment data (some (fragmentFile t.name)), warnings)

/-- A key with a text, unless there is none. -/
def maybeText (key : String) (s : Option String) : List (String × Value) :=
  s.toList.map fun s => (key, .text s)

/-- A key with a name, unless it is the customary one. -/
def uncommon {α : Type} [DecidableEq α] (customary : α) (name : α → String) (key : String) (a : α) :
    List (String × Value) :=
  if a = customary then [] else [(key, .text (name a))]

/-- What a field's file entry says: everything but what is customary. -/
def writtenField (f : Field) : Value :=
  .ofFields ([("name", .text f.name), ("type", .text f.type.name)]
    ++ flag "nullable" f.nullable ++ flag "primary_key" f.primaryKey ++ flag "unique" f.unique
    ++ maybeText "default" f.default
    ++ uncommon InputMode.required InputMode.name "input_mode" f.inputMode
    ++ flag "redacted" f.redacted)

def writtenIndex (i : Index) : Value :=
  .ofFields ([("name", .text i.name), ("columns", .texts i.columns)] ++ flag "unique" i.unique)

def writtenRelationship (r : Relationship) : Value :=
  .ofFields (maybeText "name" r.name
    ++ [("column", .text r.column),
      ("references", .ofFields ([("table", .text r.references.table)]
        ++ uncommon "id" id "column" r.references.column))]
    ++ uncommon Cardinality.manyToOne Cardinality.name "type" r.cardinality
    ++ uncommon Action.noAction Action.name "on_delete" r.onDelete
    ++ uncommon Action.noAction Action.name "on_update" r.onUpdate)

/-- A fragment as its file holds it. -/
def fragmentText (f : Schema.Fragment) : String :=
  Yaml.write (.ofFields ([("table_name", .text f.table)]
    ++ maybeText "struct_name" f.structName
    ++ unlessEmpty "fields" (f.fields.map writtenField)
    ++ unlessEmpty "alters" (f.alters.map writtenField)
    ++ unlessEmpty "indexes" (f.indexes.map writtenIndex)
    ++ unlessEmpty "relationships" (f.relationships.map writtenRelationship)))

end TableLoom.Catalog
