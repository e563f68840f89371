import TableLoom.Query.Shelf
import TableLoom.Value.Whole

/-!
Operations that send the statement of a builder and read the answer. Sending takes the builder out of
use until it is reset, even when the statement cannot be written.
-/

namespace TableLoom.Query

abbrev Row := Statement.Row

inductive Terminal where
  | fetch (model : Option RecordType)
  | fetchOne (model : Option RecordType)
  | fetchRaw
  | count
  | exists_
  | pluck (column : Value)
  | aggregate (function column : Value)
  | delete

/-- How the answer to a statement is read. -/
inductive Reading where
  | records (target : Option RecordType)
  | firstRecord (target : Option RecordType)
  | rows
  | number
  | presence
  | column (key : String)
  | value
  | affected

/-- A statement on its way, and how its answer will be read. -/
structure Sent where
  statement : Statement.Bound
  reading : Reading

/-- A row, or a record made of it. -/
inductive Record where
  | row (r : Row)
  | typed (type : RecordType) (r : Row)

/-- What an operation answers. -/
inductive Answer where
  | records (rs : List Record)
  | record (r : Option Record)
  | number (n : Int)
  | flag (b : Bool)
  | values (vs : List Value)
  | value (v : Value)

namespace Builder

/-- The type of the records that rows become: the one asked for, else the variant for the relations
that are included, else the type of the table. -/
def target (b : Builder) (model : Option RecordType) : Option RecordType :=
  match model with
  | some m => some m
  | none =>
    match b.clauses.includes with
    | [(r, _)] => (b.binding.variants.lookup r.name) <|> b.binding.recordType
    | _ :: _ :: _ => b.binding.allVariant <|> b.binding.recordType
    | [] => b.binding.recordType

/-- What a terminal operation wants: how the statement is shaped and how the answer is read. -/
structure Plan where
  shape : Shape := {}
  reading : Reading
  wrap : List Piece → List Piece := id
  deletes : Bool := false

/-- The text of a column reference behind its last point. -/
def lastName (column : String) : String :=
  String.ofList (column.toList.reverse.takeWhile (· != '.')).reverse

def plan (b : Builder) : Terminal → Except Fault Plan
  | .fetch model => .ok { reading := .records (b.target model) }
  | .fetchOne model =>
    .ok { shape := { limit := some 1 }, reading := .firstRecord (b.target model) }
  | .fetchRaw => .ok { reading := .rows }
  | .count =>
    if b.clauses.distinct then
      .ok { shape := { ordering := false, paging := false }, reading := .number
            wrap := fun ps => .text "SELECT COUNT(*) AS count FROM (" :: ps ++ [.text ") AS sub"] }
    else
      .ok { shape := { projection := some "COUNT(*) AS count", grouping := false
                       ordering := false, paging := false }
            reading := .number }
  | .exists_ =>
    .ok { shape := { projection := some "1 AS found", grouping := false
                     ordering := false, paging := false, limit := some 1 }
          reading := .presence }
  | .pluck column => do
    let column ← readColumn b.binding column
    return { shape := { projection := some column, grouping := false }
             reading := .column (lastName column) }
  | .aggregate function column => do
    let agg ← readAggregate function
    let target ← readTarget b.binding column
    return { shape := { projection := some s!"{agg.sql}({target}) AS value", grouping := false
                        ordering := false, paging := false }
             reading := .value }
  | .delete =>
    if b.clauses.joins.isEmpty && b.clauses.includes.isEmpty then
      .ok { reading := .affected, deletes := true }
    else .error .deleteNarrowed

end Builder

/-- Sends the statement of a builder. -/
def Shelf.send (s : Shelf) (id : Nat) (t : Terminal) : Shelf × Except Fault Sent :=
  match s.get? id with
  | none => (s, .error .unsupported)
  | some b =>
    match b.plan t with
    | .error e => (s, .error e)
    | .ok plan =>
      match b.begin_ with
      | .error e => (s, .error e)
      | .ok b' =>
        let s' := s.set id b'
        let pieces :=
          if plan.deletes then b'.deletion s'.embedded else b'.pieces s'.embedded plan.shape
        (s', pieces.map fun ps => ⟨bind (plan.wrap ps), plan.reading⟩)

namespace Reading

def hydrate (target : Option RecordType) (r : Row) : Record :=
  match target with
  | none => .row r
  | some t => .typed t r

def firstValue : Row → Except Fault Value
  | [] => .error .emptyRow
  | (_, v) :: _ => .ok v

/-- The whole number that characters write, which stand for a value. -/
def wholeOfChars (v : Value) (cs : List Char) : Except Fault Int :=
  (Decimal.whole? 10 cs).mapError fun refusal => .notWhole refusal v

/-- The character that a byte is on its own, if it is one. -/
def ownChar (b : UInt8) : Char :=
  if b < 0x80 then Char.ofNat b.toNat else '\ufffd'

/-- The whole number that a count answers. -/
def wholeOf (v : Value) : Except Fault Int :=
  match v with
  | .int n => .ok n
  | .bool b => .ok (if b then 1 else 0)
  | .float x =>
    if x.isNaN then .error .notNumber
    else if x.isInf then .error .infinite
    else .ok (Value.truncate x)
  | .text s => wholeOfChars v s.toList
  | .bytes b => wholeOfChars v (b.toList.map ownChar)
  | _ => .error .wrongKind

/-- The answer made of the rows that a statement returned. -/
def ofRows (reading : Reading) (rows : List Row) : Except Fault Answer :=
  match reading with
  | .records target => .ok (.records (rows.map (hydrate target)))
  | .firstRecord target => .ok (.record (rows.head?.map (hydrate target)))
  | .rows => .ok (.records (rows.map .row))
  | .number =>
    match rows with
    | [] => .ok (.number 0)
    | r :: _ => do return .number (← wholeOf (← firstValue r))
  | .presence => .ok (.flag !rows.isEmpty)
  | .column key => do
    let vs ← rows.mapM fun r =>
      match Value.find? key r with
      | some v => .ok v
      | none => firstValue r
    return .values vs
  | .value =>
    match rows with
    | [] => .ok (.value .null)
    | r :: _ => do return .value (← firstValue r)
  | .affected => .ok (.number rows.length)

end Reading

end TableLoom.Query
