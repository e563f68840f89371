import TableLoom.Check.Scalar
import TableLoom.Json.Reader
import TableLoom.Schema.Basic
import TableLoom.Text.Utf8

/-!
Related records that arrive embedded in a column as JSON. What cannot be read, or does not fit the
record's shape, counts as absent; of many records either all fit or none is taken. Only a payload that
nests too deeply is refused.
-/

namespace TableLoom.Record

open Check (Checked)

abbrev Shape := List Schema.Field

/-- The payload nests lists and maps too deeply to be read at all. -/
structure TooDeep

/-- What a text says in JSON; what is no JSON says nothing. -/
def said (s : String) : Except TooDeep Value :=
  match Json.read s with
  | .ok v => .ok v
  | .error e => if e.fault == .tooDeep then .error ⟨⟩ else .ok .null

/-- The payload of an embedding column: data as it is, and what a text or bytes say in JSON. -/
def payload : Value → Except TooDeep Value
  | .bytes b => said (Text.Utf8.decode b)
  | .text s => said s
  | v => .ok v

/-- What the entries of a map become: a record, or nothing when they do not fit one. -/
abbrev Model (α : Type) := List (Value × Value) → Option α

namespace Model

variable {α : Type} (model : Model α)

/-- The record that a payload holds. -/
def ofPayload? : Value → Option α
  | .map entries => model entries
  | _ => none

/-- The one record that a column embeds. -/
def decodeOne (v : Value) : Except TooDeep (Option α) :=
  (payload v).map model.ofPayload?

/-- The records of several payloads: all of them, or none at all. -/
def decodeAll : List Value → Except TooDeep (Option (List α))
  | [] => .ok (some [])
  | v :: vs => do
    match ← model.decodeOne v with
    | none => return none
    | some r => return (← decodeAll vs).map (r :: ·)

/-- The records that a column embeds. -/
def decodeMany (v : Value) : Except TooDeep (Option (List α)) := do
  match ← payload v with
  | .list vs => model.decodeAll vs
  | _ => return none

end Model

def readBase : Schema.BaseType → Value → Checked Value
  | .uuid, v => (Check.uuid v).map .text
  | .text, v => (Check.text v).map .text
  | .boolean, v => (Check.bool v).map .bool
  | .i16, v | .i32, v | .i64, v => (Check.int v).map .int
  | .f32, v | .f64, v => (Check.float v).map .float
  | .timestamp, v | .timestamptz, v => (Check.text v).map .text
  | .json, v => .fits v

/-- A member's value; one that may be nothing may also be absent. -/
def readMember (entries : List (Value × Value)) (f : Schema.Field) : Checked (Value × Value) :=
  let read (v : Value) : Checked Value :=
    match f.nullable, v with
    | true, .null => .fits .null
    | _, v => readBase f.type.base v
  let value :=
    if f.nullable then Check.partOr entries f.name .null read else Check.part entries f.name read
  value.map fun v => (.text f.name, v)

/-- The members of a shape, in its order; what else the entries hold is left out. -/
def readEntries (entries : List (Value × Value)) : Shape → Checked (List (Value × Value))
  | [] => .fits []
  | f :: rest => (· :: ·) <$> readMember entries f <*> readEntries entries rest

/-- The records of a shape, each the map of its members. -/
def Shape.model (shape : Shape) : Model Value :=
  fun entries => (readEntries entries shape).value?.map .map

def decodeOne (shape : Shape) : Value → Except TooDeep (Option Value) :=
  shape.model.decodeOne

def decodeMany (shape : Shape) : Value → Except TooDeep (Option (List Value)) :=
  shape.model.decodeMany

/-- The columns of a row that the shape has members for. -/
def pick (shape : Shape) (row : List (Value × Value)) : List (Value × Value) :=
  shape.filterMap fun f => (Value.find? f.name row).map fun v => (.text f.name, v)

end TableLoom.Record
