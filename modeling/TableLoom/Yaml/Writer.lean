import TableLoom.Decimal.Shortest
import TableLoom.Text.Hex
import TableLoom.Text.Surrogate
import TableLoom.Value.Basic
import TableLoom.Yaml.Kind
import TableLoom.Yaml.Letter

/-!
Writing data as YAML, one entry or item to a line. A text stands without quotes where it reads back as
itself, in single quotes where only its kind or an indicator is in the way, and else in double quotes.
Long texts are folded at a blank behind the eightieth column.
-/

namespace TableLoom.Yaml

/-- Whether a character beyond ASCII can stand as it is. -/
def isWide (c : Char) : Bool :=
  let n := c.toNat
  n == 0x85 || (0xA0 ≤ n && n ≤ 0xD7FF) || (0xE000 ≤ n && n ≤ 0xFFFD && n != 0xFEFF)
    || (0x10000 ≤ n && n < 0x10FFFF && !Text.isHalf c)

def isAscii (c : Char) : Bool :=
  0x20 ≤ c.toNat && c.toNat ≤ 0x7E

/-- Whether a character has to be escaped wherever it stands. -/
def isSpecial (c : Char) : Bool :=
  !(c == '\n' || isAscii c || isWide c)

/-- Whether a character that begins a scalar would be taken for an indicator. -/
def leadIndicates (c : Char) (next : Option Char) : Bool :=
  "#,[]\x7b\x7d&*!|>'\"%@`".toList.contains c
    || ((c == '?' || c == ':' || c == '-') && next.all isGap)

/-- Whether a character inside a scalar would be taken for an indicator. -/
def innerIndicates (before c : Char) (next : Option Char) : Bool :=
  (c == ':' && next.all isGap) || (c == '#' && isGap before)

def innerIndicators : List Char → Bool
  | a :: b :: rest => innerIndicates a b rest.head? || innerIndicators (b :: rest)
  | _ => false

/-- Whether something in a text would be taken for structure. -/
def hasIndicators (cs : List Char) : Bool :=
  "---".toList.isPrefixOf cs || "...".toList.isPrefixOf cs
    || (match cs with
      | c :: rest => leadIndicates c rest.head?
      | [] => false)
    || innerIndicators cs

/-- Whether one character of the first sort comes directly before one of the second. -/
def adjacent (p q : Char → Bool) : List Char → Bool
  | a :: b :: rest => (p a && q b) || adjacent p q (b :: rest)
  | _ => false

/-- How a text is written. -/
inductive Style where
  | plain | single | double
  deriving DecidableEq

def isEdge (c : Char) : Bool := c == ' ' || isBreak c

def canBePlain (cs : List Char) : Bool :=
  !(cs.head?.any isEdge || cs.getLast?.any isEdge || cs.any isBreak || cs.any isSpecial
    || hasIndicators cs)

def canBeSingle (cs : List Char) : Bool :=
  !(cs.any isSpecial || adjacent isBreak (· == ' ') cs || adjacent (· == ' ') isBreak cs)

def styleOf (s : String) : Style :=
  let cs := s.toList
  if Kind.of s == .text && canBePlain cs then .plain
  else if canBeSingle cs then .single
  else .double

/-- The column behind which lines are folded. -/
def bestWidth : Nat := 80

/-- A line break and the blanks before the continuation. -/
def continuation (indent : Nat) : List Char :=
  '\n' :: List.replicate indent ' '

/-- What a piece of a scalar consists of. -/
inductive Piece where
  | gap | breaks | quote | other
  deriving DecidableEq

def pieceOf (c : Char) : Piece :=
  if c == ' ' then .gap else if isBreak c then .breaks else if c == '\'' then .quote else .other

/-- Neighbouring characters of one sort, together. -/
def pieces : List Char → List (Piece × List Char)
  | [] => []
  | c :: rest =>
    match pieces rest with
    | (k, cs) :: more =>
      if k == pieceOf c then (k, c :: cs) :: more else (pieceOf c, [c]) :: (k, cs) :: more
    | [] => [(pieceOf c, [c])]

/-- A text without quotes, from a column on. -/
def foldPlain (indent column : Nat) : List (Piece × List Char) → List Char
  | [] => []
  | (k, cs) :: rest =>
    if k == .gap && cs.length == 1 && bestWidth < column then
      continuation indent ++ foldPlain indent indent rest
    else cs ++ foldPlain indent (column + cs.length) rest

/-- A run of line breaks inside single quotes: one more than it stands for when it starts with a line
feed. -/
def writeBreaks (indent : Nat) (cs : List Char) : List Char :=
  (if cs.head? == some '\n' then ['\n'] else []) ++ cs ++ List.replicate indent ' '

/-- A text between single quotes, from a column on. -/
def foldSingle (indent column : Nat) (first : Bool) : List (Piece × List Char) → List Char
  | [] => []
  | (k, cs) :: rest =>
    match k with
    | .gap =>
      if cs.length == 1 && bestWidth < column && !first && !rest.isEmpty then
        continuation indent ++ foldSingle indent indent false rest
      else cs ++ foldSingle indent (column + cs.length) false rest
    | .breaks => writeBreaks indent cs ++ foldSingle indent indent false rest
    | .quote => cs.flatMap (fun c => [c, c]) ++ foldSingle indent (column + 2 * cs.length) false rest
    | .other => cs ++ foldSingle indent (column + cs.length) false rest

/-- A number in base sixteen with letters in upper case. -/
def upperHex (width n : Nat) : List Char :=
  (Text.hexPadded width n).map Char.toUpper

def shortEscape? (c : Char) : Option Char :=
  [('\x00', '0'), ('\x07', 'a'), ('\x08', 'b'), ('\t', 't'), ('\n', 'n'), ('\x0b', 'v'),
    ('\x0c', 'f'), ('\r', 'r'), ('\x1b', 'e'), ('"', '"'), ('\\', '\\'), ('\u0085', 'N'),
    ('\u00a0', '_'), ('\u2028', 'L'), ('\u2029', 'P')].lookup c

def needsEscape (c : Char) : Bool :=
  let n := c.toNat
  c == '"' || c == '\\' || isBreak c || n == 0xFEFF
    || !(isAscii c || (0xA0 ≤ n && n ≤ 0xD7FF) || (0xE000 ≤ n && n ≤ 0xFFFD))

def escaped (c : Char) : List Char :=
  let n := Text.codeOf c
  match shortEscape? c with
  | some e => ['\\', e]
  | none =>
    if n ≤ 0xFF then '\\' :: 'x' :: upperHex 2 n
    else if n ≤ 0xFFFF then '\\' :: 'u' :: upperHex 4 n
    else '\\' :: 'U' :: upperHex 8 n

/-- A fold inside double quotes; a blank that would begin the line is escaped. -/
def doubleFold (indent : Nat) (next : Option Char) : List Char × Nat :=
  if next == some ' ' then ('\\' :: continuation indent ++ ['\\'], indent + 1)
  else ('\\' :: continuation indent, indent)

/-- A text between double quotes, from a column on. `pending` holds, last first, the characters that
stand for themselves and are not written yet. -/
def foldDouble (indent : Nat) (first : Bool) (column : Nat) (pending : List Char) :
    List Char → List Char
  | [] => pending.reverse
  | c :: rest =>
    let inside := !first && !rest.isEmpty
    if needsEscape c then
      let column := column + pending.length + (escaped c).length
      let written := pending.reverse ++ escaped c
      if inside && bestWidth + 1 < column then
        let (fold, column) := doubleFold indent rest.head?
        written ++ fold ++ foldDouble indent false column [] rest
      else written ++ foldDouble indent false column [] rest
    else if inside && (c == ' ' || pending.isEmpty) && bestWidth < column + pending.length then
      let (fold, column) := doubleFold indent (some c)
      pending.reverse ++ fold ++ foldDouble indent false column [c] rest
    else foldDouble indent false column (c :: pending) rest

/-- A text behind what has been written up to a column. -/
def writeText (indent column : Nat) (s : String) : String :=
  let cs := s.toList
  String.ofList <| match styleOf s with
    | .plain => foldPlain indent (column + 1) (pieces cs)
    | .single => '\'' :: foldSingle indent (column + 2) true (pieces cs) ++ ['\'']
    | .double => '"' :: foldDouble indent true (column + 2) [] cs ++ ['"']

def writeFloat (x : Float) : String :=
  if x.isNaN then ".nan" else if x.isInf then (if x < 0 then "-.inf" else ".inf")
  else Decimal.render x

/-- A value on the line that leads up to it, when it has a form there. -/
def inline? (indent column : Nat) : Value → Option String
  | .null => some "null"
  | .bool b => some (if b then "true" else "false")
  | .int n => some (toString n)
  | .float x => some (writeFloat x)
  | .text s => some (writeText indent column s)
  | .bytes b => some (Text.hexOfBytes b)
  | .moment m => some m.text
  | .list [] | .set [] => some "[]"
  | .map [] => some "\x7b\x7d"
  | .list _ | .set _ | .map _ => none

def pad (indent : Nat) : String := String.ofList (List.replicate indent ' ')

/-- Replaces the blanks before the first line by the mark of an item. -/
def markItem (indent : Nat) : List String → List String
  | [] => []
  | first :: rest => (pad indent ++ "- " ++ String.ofList (first.toList.drop (indent + 2))) :: rest

mutual

/-- The lines of a map or list that does not fit on the line that leads up to it. -/
def blockLines (indent : Nat) : Value → List String
  | .map entries => entryLines indent entries
  | .list items | .set items => itemLines indent items
  | _ => []

/-- An entry is its key and its value; a list stands at the column of its key. -/
def entryLines (indent : Nat) : List (Value × Value) → List String
  | [] => []
  | (k, v) :: rest =>
    let key := pad indent ++ ((inline? (indent + 2) indent k).getD "") ++ ":"
    let lines := match inline? (indent + 2) key.length v, v with
      | some s, _ => [key ++ " " ++ s]
      | none, .list items => key :: itemLines indent items
      | none, v => key :: blockLines (indent + 2) v
    lines ++ entryLines indent rest

/-- An item stands behind its mark; a map or list begins on the line of the mark. -/
def itemLines (indent : Nat) : List Value → List String
  | [] => []
  | v :: rest =>
    let lines := match inline? (indent + 2) (indent + 1) v with
      | some s => [pad indent ++ "- " ++ s]
      | none => markItem indent (blockLines (indent + 2) v)
    lines ++ itemLines indent rest

end

/-- A whole document that holds a map or list. -/
def write (v : Value) : String :=
  String.join ((blockLines 0 v).map (· ++ "\n"))

end TableLoom.Yaml
