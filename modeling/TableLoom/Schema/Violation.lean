import TableLoom.Naming
import TableLoom.Schema.Finding

/-!
The rules that a table can break, each with what it says about the table.
-/

namespace TableLoom.Schema

/-- A broken rule. Every constructor starts with the table that broke it. -/
inductive Violation where
  /-- The table has no fields. -/
  | noFields (table : String)
  /-- The table's name is no identifier. -/
  | tableName (table : String)
  /-- The table's name is taken by the package that would hold it. -/
  | tableNameTaken (table : String)
  /-- The record type cannot be called this. -/
  | recordName (table record : String)
  | fieldName (table field : String)
  /-- Records have a member of this name already. -/
  | fieldNameTaken (table field : String)
  | indexName (table index : String)
  | repeatedIndex (table index : String)
  | repeatedField (table field : String)
  /-- A field may be left out on insertion, must not be nothing, and has no default. -/
  | noDefault (table field : String)
  /-- No field tells the rows apart; this is allowed. -/
  | noPrimaryKey (table : String)
  | indexColumns (table index : String) (columns : List String)
  /-- A relationship leads to a table that nothing is known about. -/
  | unknownTable (table column target : String)
  | unknownColumn (table column target : String)
  /-- The related rows would be embedded under something that is no identifier. -/
  | memberName (table column target member : String)
  | repeatedMember (table column target member : String)
  /-- The table between two others has no keys to both. -/
  | noJunction (table column target : String)
  /-- Two fragments declare one field. -/
  | declaredTwice (table field : String) (sources : List String) (reason : String)
  | malformed (table : String) (source : Option String) (reason : String)
  | repeatedRecord (table record owner : String)
  /-- A relationship leads to a rejected table. -/
  | dependsOnRejected (table column target : String)
  deriving DecidableEq

namespace Violation

/-- How findings show a relationship. -/
def arrow (column target : String) : String :=
  s!"{column} → {target}"

def severity : Violation → Severity
  | noPrimaryKey _ => .warning
  | _ => .error

def code : Violation → String
  | noFields _ => "EMPTY_TABLE"
  | tableName _ | tableNameTaken _ | recordName .. | fieldName .. | indexName ..
  | memberName .. => "INVALID_IDENTIFIER"
  | fieldNameTaken .. => "RESERVED_FIELD_NAME"
  | repeatedIndex .. => "DUPLICATE_INDEX_NAME"
  | repeatedField .. | repeatedMember .. | declaredTwice .. => "DUPLICATE_FIELD"
  | noDefault .. => "MISSING_DEFAULT_FOR_REQUIRED_FIELD"
  | noPrimaryKey _ => "NO_PRIMARY_KEY"
  | indexColumns .. => "UNKNOWN_INDEX_COLUMN"
  | unknownTable .. => "UNKNOWN_REFERENCED_TABLE"
  | unknownColumn .. => "UNKNOWN_RELATIONSHIP_COLUMN"
  | noJunction .. => "INVALID_JUNCTION_TABLE"
  | malformed .. => "MALFORMED_FRAGMENT"
  | repeatedRecord .. => "DUPLICATE_RECORD_NAME"
  | dependsOnRejected .. => "REFERENCED_TABLE_REJECTED"

def message : Violation → String
  | noFields t => s!"Table '{t}' declares no fields."
  | tableName t => s!"Table name '{t}' is not a valid identifier."
  | tableNameTaken t => s!"Table name '{t}' would shadow a module of the generated package."
  | recordName t r => s!"Record name '{r}' for table '{t}' is not usable as a class name."
  | fieldName t f => s!"Field '{f}' in table '{t}' is not a valid identifier."
  | fieldNameTaken t f =>
    s!"Field '{f}' in table '{t}' clashes with a reserved name and cannot be emitted as a "
      ++ "record member."
  | indexName t i => s!"Index '{i}' on table '{t}' is not a valid identifier."
  | repeatedIndex t i => s!"Index '{i}' is defined more than once on table '{t}'."
  | repeatedField t f => s!"Field '{f}' appears more than once in table '{t}'."
  | noDefault t f =>
    s!"Field '{f}' in table '{t}' is non-nullable and optional on insert but has no default."
  | noPrimaryKey t =>
    s!"Table '{t}' has no primary key; id-based CRUD functions will not be generated."
  | indexColumns t i columns =>
    s!"Index '{i}' on table '{t}' references non-existent columns: "
      ++ Value.literalTexts columns
  | unknownTable t c target =>
    s!"Relationship '{c}' on table '{t}' references unknown table '{target}'."
  | unknownColumn t c _ => s!"Relationship column '{c}' does not exist in table '{t}'."
  | memberName _ c target m =>
    s!"Relationship '{c}' → '{target}' yields member name '{m}', which is not a valid identifier."
  | repeatedMember t c target m =>
    s!"Relationship '{c}' → '{target}' yields member name '{m}', which is already used in "
      ++ s!"table '{t}'."
  | noJunction t _ target =>
    s!"Table '{target}' is used as a many-to-many junction by '{t}' but does not hold foreign "
      ++ s!"keys to both sides (expected '{Naming.singular t}_id' and a key to another table)."
  | declaredTwice _ _ _ reason => reason
  | malformed _ _ reason => reason
  | repeatedRecord t r owner =>
    s!"Table '{t}' would generate record '{r}', already generated for table '{owner}'. "
      ++ "Set 'struct_name' to disambiguate."
  | dependsOnRejected t _ target =>
    s!"Table '{t}' references table '{target}', which was rejected."

/-- The circumstances, beginning with the table. -/
def context : Violation → List (String × Value)
  | noFields t | tableName t | tableNameTaken t | noPrimaryKey t => [("table", .text t)]
  | recordName t r | repeatedRecord t r _ => [("table", .text t), ("record", .text r)]
  | fieldName t f | fieldNameTaken t f | repeatedField t f | noDefault t f =>
    [("table", .text t), ("field", .text f)]
  | indexName t i | repeatedIndex t i => [("table", .text t), ("index", .text i)]
  | indexColumns t i columns =>
    [("table", .text t), ("index", .text i), ("columns", .texts columns)]
  | unknownTable t c target | unknownColumn t c target | memberName t c target _
  | repeatedMember t c target _ | noJunction t c target | dependsOnRejected t c target =>
    [("table", .text t), ("relationship", .text (arrow c target))]
  | declaredTwice t f sources _ =>
    [("table", .text t), ("field", .text f), ("sources", .texts sources)]
  | malformed t source _ => [("table", .text t), ("source", .ofText? source)]

def finding (v : Violation) : Finding :=
  { severity := v.severity, code := v.code, message := v.message, context := v.context }

end Violation

end TableLoom.Schema
