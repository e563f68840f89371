import TableLoom.Value.Moment

/-!
Data of no fixed shape: what files, rows and bound parameters hold. A map keeps its entries in the
order in which their keys first arrived.
-/

namespace TableLoom

/-- A piece of data. -/
inductive Value where
  | null
  | bool (b : Bool)
  | int (n : Int)
  | float (x : Float)
  | text (s : String)
  | bytes (b : ByteArray)
  | moment (m : Moment)
  | list (items : List Value)
  /-- Items without an order, each of them once. -/
  | set (items : List Value)
  | map (entries : List (Value × Value))
  deriving Inhabited

namespace Value

/-- The value of a text key; of several equal keys the first counts. -/
def find? (key : String) : List (Value × Value) → Option Value
  | [] => none
  | (.text k, v) :: rest => if k == key then some v else find? key rest
  | _ :: rest => find? key rest

/-- The entry of a map under a text key. -/
def get? (key : String) : Value → Option Value
  | .map entries => find? key entries
  | _ => none

/-- Sets the value of a text key: in place when the key is present, at the end when it is not. -/
def put (key : String) (v : Value) : List (Value × Value) → List (Value × Value)
  | [] => [(.text key, v)]
  | (.text k, old) :: rest =>
    if k == key then (.text k, v) :: rest else (.text k, old) :: put key v rest
  | entry :: rest => entry :: put key v rest

/-- A map from text keys. -/
def ofFields (fields : List (String × Value)) : Value :=
  .map (fields.map fun (k, v) => (.text k, v))

def asText? : Value → Option String
  | .text s => some s
  | _ => none

def ofText? : Option String → Value
  | some s => .text s
  | none => .null

def texts (ss : List String) : Value :=
  .list (ss.map .text)

end Value

end TableLoom
