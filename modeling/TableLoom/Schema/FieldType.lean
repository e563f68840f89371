/-!
Column types. Every base type has a variant for columns that may hold nothing, written with a suffix.
-/

namespace TableLoom.Schema

inductive BaseType where
  | uuid | text | boolean | i16 | i32 | i64 | f32 | f64 | timestamp | timestamptz | json
  deriving DecidableEq

namespace BaseType

def all : List BaseType :=
  [uuid, text, boolean, i16, i32, i64, f32, f64, timestamp, timestamptz, json]

def name : BaseType → String
  | uuid => "uuid"
  | text => "text"
  | boolean => "boolean"
  | i16 => "i16"
  | i32 => "i32"
  | i64 => "i64"
  | f32 => "f32"
  | f64 => "f64"
  | timestamp => "timestamp"
  | timestamptz => "timestamptz"
  | json => "json"

def memberType : BaseType → String
  | uuid => "UUID"
  | text => "str"
  | boolean => "bool"
  | i16 | i32 | i64 => "int"
  | f32 | f64 => "float"
  | timestamp | timestamptz => "datetime"
  | json => "Any"

/-- The module and name that the type has to be imported from. -/
def imported : BaseType → Option (String × String)
  | uuid => some ("uuid", "UUID")
  | timestamp | timestamptz => some ("datetime", "datetime")
  | json => some ("typing", "Any")
  | _ => none

end BaseType

/-- A base type, and whether the column may hold nothing. -/
structure FieldType where
  base : BaseType
  nullable : Bool
  deriving DecidableEq

/-- The suffix of the types of columns that may hold nothing. -/
def optionalSuffix : String := "_optional"

/-- A type name without its suffix, and whether it had one. -/
def splitTypeName (name : String) : String × Bool :=
  let cs := name.toList
  let suffix := optionalSuffix.toList
  if suffix.isSuffixOf cs then (String.ofList (cs.take (cs.length - suffix.length)), true)
  else (name, false)

namespace FieldType

/-- Each base type and then its variant. -/
def all : List FieldType :=
  BaseType.all.flatMap fun b => [⟨b, false⟩, ⟨b, true⟩]

def name (t : FieldType) : String :=
  if t.nullable then t.base.name ++ optionalSuffix else t.base.name

end FieldType

end TableLoom.Schema
