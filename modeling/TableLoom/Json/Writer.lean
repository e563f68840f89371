import TableLoom.Decimal.Shortest
import TableLoom.Text.Hex
import TableLoom.Text.Surrogate
import TableLoom.Value.Basic

/-!
Writing JSON, on one line or indented. Characters beyond ASCII stand for themselves.
-/

namespace TableLoom.Json

/-- One character of a written text. Half of a surrogate pair is written by its code. -/
def writtenChar (c : Char) : List Char :=
  if c == '"' || c == '\\' then ['\\', c]
  else if c == '\n' then ['\\', 'n']
  else if c == '\r' then ['\\', 'r']
  else if c == '\t' then ['\\', 't']
  else if c == '\x08' then ['\\', 'b']
  else if c == '\x0c' then ['\\', 'f']
  else if c.toNat < 0x20 || Text.isHalf c then '\\' :: 'u' :: Text.hexPadded 4 (Text.codeOf c)
  else [c]

def writeText (s : String) : String :=
  String.ofList ('"' :: s.toList.flatMap writtenChar ++ ['"'])

def writeFloat (x : Float) : String :=
  if x.isNaN then "NaN"
  else if x.isInf then (if x < 0 then "-Infinity" else "Infinity")
  else Decimal.render x

/-- A value other than a list or map. -/
def writeScalar : Value → String
  | .null => "null"
  | .bool b => if b then "true" else "false"
  | .int n => toString n
  | .float x => writeFloat x
  | .text s => writeText s
  | .bytes b => writeText (Text.hexOfBytes b)
  | .moment m => writeText m.text
  | .list _ | .set _ => "[]"
  | .map _ => "\x7b\x7d"

/-- A key: texts as they are, other scalars by their written form. -/
def writeKey : Value → String
  | .text s => writeText s
  | v => writeText (writeScalar v)

mutual

def compact : Value → String
  | .list items | .set items => "[" ++ ",".intercalate (compactItems items) ++ "]"
  | .map entries => "\x7b" ++ ",".intercalate (compactEntries entries) ++ "\x7d"
  | v => writeScalar v

def compactItems : List Value → List String
  | [] => []
  | v :: rest => compact v :: compactItems rest

def compactEntries : List (Value × Value) → List String
  | [] => []
  | (k, v) :: rest => (writeKey k ++ ":" ++ compact v) :: compactEntries rest

end

/-- A line break and two blanks for every level. -/
def newLine (level : Nat) : String :=
  "\n" ++ String.ofList (List.replicate (2 * level) ' ')

mutual

/-- A value with every item on a line of its own, two blanks deeper than what holds it. -/
def indented (level : Nat) : Value → String
  | .list (v :: rest) =>
    "[" ++ newLine (level + 1)
      ++ ("," ++ newLine (level + 1)).intercalate (indentedItems (level + 1) (v :: rest))
      ++ newLine level ++ "]"
  | .map (e :: rest) =>
    "\x7b" ++ newLine (level + 1)
      ++ ("," ++ newLine (level + 1)).intercalate (indentedEntries (level + 1) (e :: rest))
      ++ newLine level ++ "\x7d"
  | v => writeScalar v

def indentedItems (level : Nat) : List Value → List String
  | [] => []
  | v :: rest => indented level v :: indentedItems level rest

def indentedEntries (level : Nat) : List (Value × Value) → List String
  | [] => []
  | (k, v) :: rest => (writeKey k ++ ": " ++ indented level v) :: indentedEntries level rest

end

end TableLoom.Json
