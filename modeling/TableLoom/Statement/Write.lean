import TableLoom.Text.Line
import TableLoom.Value.Literal

/-!
Statements whose shape depends on what is written: partial updates and inserts of several rows.
Placeholders are numbered in the order of the columns.
-/

namespace TableLoom.Statement

abbrev Row := List (Value × Value)

/-- A statement with the values bound to its placeholders. -/
structure Bound where
  sql : String
  params : List Value

/-- Why no statement can be built. -/
inductive WriteError where
  | unknownColumns (table : String) (columns : List Value)
  | nothingToUpdate (table : String)
  | noRows (table : String)
  | missingColumn (row : Nat) (table column : String)

def WriteError.message : WriteError → String
  | .unknownColumns table columns =>
    s!"Unknown column(s) for table '{table}': " ++ (Value.list columns).literal
  | .nothingToUpdate table => s!"No columns to update for table '{table}'."
  | .noRows table => s!"No rows to insert into '{table}'."
  | .missingColumn row table column =>
    s!"Row {row} for '{table}' is missing column '{column}'."

def placeholder (n : Nat) : String :=
  s!"${n}"

/-- A column set to the value of a placeholder. -/
structure Assignment where
  column : String
  slot : Nat

def Assignment.sql (a : Assignment) : String :=
  a.column ++ " = " ++ placeholder a.slot

/-- Columns with the placeholders from `first` on. -/
def assign (first : Nat) : List String → List Assignment
  | [] => []
  | c :: rest => ⟨c, first⟩ :: assign (first + 1) rest

/-- Sets the changed columns, in the order of the table's columns, for the row with the key. -/
def update (table keyColumn : String) (key : Value) (changes : Row) (columns : List String) :
    Except WriteError Bound :=
  let known : Value → Bool
    | .text c => columns.contains c
    | _ => false
  let unknown := (changes.map (·.1)).filter fun c => !known c
  if unknown.isEmpty then
    let ordered := columns.filter fun c => (Value.find? c changes).isSome
    if ordered.isEmpty then .error (.nothingToUpdate table)
    else
      let assignments := Text.join ", " ((assign 2 ordered).map Assignment.sql)
      .ok { sql := s!"UPDATE {table} SET {assignments} WHERE {keyColumn} = $1 RETURNING *"
            params := key :: ordered.filterMap (Value.find? · changes) }
  else .error (.unknownColumns table unknown)

/-- One value of an inserted row: its placeholder, and the default that stands in for nothing. -/
structure Cell where
  slot : Nat
  fallback : Option Value

def Cell.sql (c : Cell) : String :=
  match c.fallback with
  | none => placeholder c.slot
  | some d => "COALESCE(" ++ placeholder c.slot ++ ", " ++ d.display ++ ")"

/-- A row's cells and values, with placeholders from `first` on. -/
def insertRow (table : String) (index : Nat) (defaults row : Row) (first : Nat) :
    List String → Except WriteError (List (Cell × Value))
  | [] => .ok []
  | column :: rest =>
    let value := Value.find? column row
    let fallback := Value.find? column defaults
    if value.isNone && fallback.isNone then .error (.missingColumn index table column)
    else do
      let cells ← insertRow table index defaults row (first + 1) rest
      return (⟨first, fallback⟩, value.getD .null) :: cells

/-- The cells of all rows, numbered through. -/
def insertRows (table : String) (columns : List String) (defaults : Row) (index first : Nat) :
    List Row → Except WriteError (List (List (Cell × Value)))
  | [] => .ok []
  | row :: rest => do
    let cells ← insertRow table index defaults row first columns
    let more ← insertRows table columns defaults (index + 1) (first + columns.length) rest
    return cells :: more

/-- Inserts rows with one statement; a column with a default falls back to it. -/
def insertMany (table : String) (columns : List String) (rows : List Row) (defaults : Row) :
    Except WriteError Bound :=
  if rows.isEmpty then .error (.noRows table)
  else do
    let cells ← insertRows table columns defaults 0 1 rows
    let tuple (row : List (Cell × Value)) := "(" ++ Text.join ", " (row.map (·.1.sql)) ++ ")"
    let values := Text.join ", " (cells.map tuple)
    return { sql := s!"INSERT INTO {table} (" ++ Text.join ", " columns
                ++ s!") VALUES {values} RETURNING *"
             params := cells.flatten.map (·.2) }

end TableLoom.Statement
