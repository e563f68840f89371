import TableLoom.Text.Case
import TableLoom.Text.Line

/-!
How records, members and relations are named after tables and columns. Every rule is a function of
the names alone, so the same schema always yields the same identifiers.
-/

namespace TableLoom.Naming

/-- One trailing `s` less, unless nothing would be left. -/
def singularChars (cs : List Char) : List Char :=
  if 1 < cs.length && cs.getLast? == some 's' then cs.dropLast else cs

/-- The singular of a name: one trailing `s` is dropped, and no irregular form is known. -/
def singular (name : String) : String :=
  String.ofList (singularChars name.toList)

/-- The first letter in upper case, the rest as written. -/
def capitalized : List Char → List Char
  | [] => []
  | c :: rest => Text.upperChar c ++ rest

/-- Segments between underscores, each capitalized and joined without a mark. -/
def pascalChars (cs : List Char) : List Char :=
  (Text.splitChars '_' cs).flatMap capitalized

def pascal (name : String) : String :=
  String.ofList (pascalChars name.toList)

/-- The name of one record of a table. -/
def pascalSingular (name : String) : String :=
  pascal (singular name)

/-- Lower case, with an underscore before every upper-case letter but the first character. -/
def snakeChars : List Char → List Char
  | [] => []
  | c :: rest => Text.lowerChar c ++
      rest.flatMap fun d => if Text.isUpperChar d then '_' :: Text.lowerChar d else Text.lowerChar d

def snake (name : String) : String :=
  String.ofList (snakeChars name.toList)

/-- A key column without its `_id`; other columns, and `_id` itself, stay as they are. -/
def keyStem (column : String) : String :=
  if Text.endsWith column "_id" && 3 < column.length then
    String.ofList (column.toList.dropLast.dropLast.dropLast)
  else column

/-- The column that marks a relationship as seen from the table that is referred to. -/
def reverseColumn : String := "id"

/-- The association that a column points at, named after the table when the column is the reverse
one and after the column otherwise. -/
def association (column table : String) (plural : Bool) : String :=
  if column == reverseColumn then (if plural then pascal table else pascalSingular table)
  else pascal (keyStem column)

/-- The member under which a relation is embedded: the table's name when there are many rows, its
singular when the table refers back with one row, else the stem of the key column. -/
def relationMember (column table : String) (many : Bool) : String :=
  if many then table
  else if column == reverseColumn then singular table
  else keyStem column

/-- A column named with its table, unless it already names one. -/
def qualify (table column : String) : String :=
  if column.toList.contains '.' then column else table ++ "." ++ column

end TableLoom.Naming
