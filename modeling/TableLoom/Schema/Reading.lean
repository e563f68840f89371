import TableLoom.Check.Scalar
import TableLoom.Schema.Basic

/-!
Schemas read from data. A field's type says whether it may hold nothing; a flag that says otherwise is
refused. A field without an input mode is filled in by the database when it is a key or has a default.
-/

namespace TableLoom.Schema

open Check (Checked)

/-- The refusal of a field whose flag and type disagree. -/
def contradiction (entries : List (Value × Value)) (typeName : String) (flag : Value)
    (nullable : Bool) : String :=
  let name := (Value.find? "name" entries).getD .null
  if !name.isShowable || !flag.isShowable then Decimal.tooLongToWrite
  else s!"Field '{name.display}' declares nullable={flag.display} but its type '{typeName}' is "
    ++ (if nullable then "nullable." else "non-nullable.")

/-- Checks the flag against the type, when the type is a text and the flag is given. -/
def checkNullable (entries : List (Value × Value)) : Checked Unit :=
  match Value.find? "type" entries, (Value.find? "nullable" entries).getD .null with
  | some (.text typeName), flag =>
    let nullable := (splitTypeName typeName).2
    match flag with
    | .null => .fits ()
    | flag =>
      if flag.truthy != nullable then
        .flaw (.refused (contradiction entries typeName flag nullable))
      else .fits ()
  | _, _ => .fits ()

/-- What a type given as a text says; the flag counts only where the type is no text. -/
def readNullable (entries : List (Value × Value)) : Checked Bool :=
  match Value.find? "type" entries with
  | some (.text typeName) => .fits (splitTypeName typeName).2
  | _ => Check.partOr entries "nullable" false Check.bool

/-- The mode of a field that does not give one. -/
def derivedMode (entries : List (Value × Value)) : InputMode :=
  let key := ((Value.find? "primary_key" entries).getD .null).truthy
  let default := match Value.find? "default" entries with
    | none | some .null => false
    | some _ => true
  if key || default then .autoGenerated else .required

def readMode (entries : List (Value × Value)) : Checked InputMode :=
  match Value.find? "input_mode" entries with
  | none | some .null => .fits (derivedMode entries)
  | some v => (Check.oneOf InputMode.all InputMode.name v).under (.key "input_mode")

def fieldKeys : List String :=
  ["name", "type", "nullable", "primary_key", "unique", "default", "input_mode", "redacted"]

def readFieldEntries (entries : List (Value × Value)) : Checked Field :=
  let flag (name : String) : Checked Bool := Check.partOr entries name false Check.bool
  Field.mk <$> Check.part entries "name" Check.name
    <*> Check.part entries "type" (Check.oneOf FieldType.all FieldType.name)
    <*> readNullable entries
    <*> flag "primary_key" <*> flag "unique"
    <*> Check.partOr entries "default" none (Check.optional Check.text)
    <*> readMode entries <*> flag "redacted"
    <* Check.noOthers fieldKeys entries

def readField : Value → Checked Field :=
  Check.record "FieldDef" fun entries =>
    (checkNullable entries).andThen fun _ => readFieldEntries entries

/-- Columns of an index: at least one, and none twice. -/
def readIndexColumns (v : Value) : Checked (List String) :=
  (Check.list Check.text v).andThen fun columns =>
    if columns.isEmpty then .flaw .emptyList
    else if columns.eraseDups.length != columns.length then
      .flaw (.refused ("Duplicate columns in index: " ++ Value.literalTexts columns))
    else .fits columns

def readIndex : Value → Checked Index :=
  Check.record "IndexDef" fun entries =>
    Index.mk <$> Check.part entries "name" Check.name
      <*> Check.part entries "columns" readIndexColumns
      <*> Check.partOr entries "unique" false Check.bool
      <* Check.noOthers ["name", "columns", "unique"] entries

def readReference : Value → Checked Reference :=
  Check.record "ReferenceDef" fun entries =>
    Reference.mk <$> Check.part entries "table" Check.name
      <*> Check.partOr entries "column" "id" Check.name
      <* Check.noOthers ["table", "column"] entries

/-- The key under which a relationship gives its cardinality: the short one when it is present. -/
def cardinalityKey (entries : List (Value × Value)) : String :=
  if (Value.find? "type" entries).isSome then "type" else "relationship_type"

def readRelationship : Value → Checked Relationship :=
  Check.record "RelationshipDef" fun entries =>
    let action (name : String) : Checked Action :=
      Check.partOr entries name .noAction (Check.oneOf Action.all Action.name)
    Relationship.mk <$> Check.partOr entries "name" none (Check.optional Check.text)
      <*> Check.part entries "column" Check.name
      <*> Check.part entries "references" readReference
      <*> Check.partOr entries (cardinalityKey entries) .manyToOne
        (Check.oneOf Cardinality.all Cardinality.name)
      <*> action "on_delete" <*> action "on_update"
      <* Check.noOthers
        ["name", "column", "references", cardinalityKey entries, "on_delete", "on_update"] entries

def readFragment : Value → Checked Fragment :=
  Check.record "SchemaFragment" fun entries =>
    let many {α : Type} (name : String) (read : Value → Checked α) : Checked (List α) :=
      Check.partOr entries name [] (Check.list read)
    Fragment.mk <$> Check.part entries "table_name" Check.name
      <*> Check.partOr entries "struct_name" none (Check.optional Check.text)
      <*> many "fields" readField <*> many "alters" readField
      <*> many "indexes" readIndex <*> many "relationships" readRelationship
      <*> Check.partOr entries "source" none (Check.optional Check.text)
      <* Check.noOthers ["table_name", "struct_name", "fields", "alters", "indexes",
        "relationships", "source"] entries

def readTable : Value → Checked Table :=
  Check.record "TableSchema" fun entries =>
    let many {α : Type} (name : String) (read : Value → Checked α) : Checked (List α) :=
      Check.partOr entries name [] (Check.list read)
    Table.mk <$> Check.part entries "name" Check.name
      <*> Check.partOr entries "struct_name" none (Check.optional Check.text)
      <*> many "fields" readField
      <*> many "relationships" readRelationship <*> many "indexes" readIndex
      <*> many "alters" readField
      <* Check.noOthers ["name", "struct_name", "fields", "relationships", "indexes", "alters"]
        entries

end TableLoom.Schema
