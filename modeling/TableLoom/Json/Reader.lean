import TableLoom.Decimal.Numeral
import TableLoom.Text.Hex
import TableLoom.Text.Surrogate
import TableLoom.Value.Basic

/-!
Reading JSON. A fault says what was expected and where: reading stops at the first character that
cannot continue the text. `NaN` and the infinities are read as numbers, and of several equal keys
the last gives the value and the first the place.
-/

namespace TableLoom.Json

open Decimal (digits exponent)

/-- What is wrong with a text, or with what it asks for. -/
inductive Fault where
  | expectingValue
  | expectingKey
  | expectingColon
  | expectingComma
  | extraData
  | unterminatedText
  | controlCharacter
  | badEscape
  | badCodeEscape
  | byteOrderMark
  /-- A whole number has more digits than can be read. -/
  | tooLong (digits : Nat)
  /-- Lists and maps hold one another too often. -/
  | tooDeep
  deriving DecidableEq

/-- A fault with the number of characters that were left when it was met. -/
structure Stop where
  fault : Fault
  left : Nat

/-- A step of reading: what was read and the characters that follow it. -/
abbrev Step (α : Type) := Except Stop (α × List Char)

def isBlank (c : Char) : Bool :=
  c == ' ' || c == '\t' || c == '\n' || c == '\r'

def skipBlank (cs : List Char) : List Char :=
  cs.dropWhile isBlank

/-- The character that a one-letter escape stands for. -/
def escape? : Char → Option Char
  | '"' => some '"'
  | '\\' => some '\\'
  | '/' => some '/'
  | 'b' => some '\x08'
  | 'f' => some '\x0c'
  | 'n' => some '\n'
  | 'r' => some '\r'
  | 't' => some '\t'
  | _ => none

def isHighSurrogate (n : Nat) : Bool := 0xD800 ≤ n && n < 0xDC00
def isLowSurrogate (n : Nat) : Bool := 0xDC00 ≤ n && n < 0xE000

/-- The character of a code, which may be that of half a pair. -/
def charOfCode (n : Nat) : Char :=
  if isHighSurrogate n || isLowSurrogate n then Text.ofHalf n else Char.ofNat n

/-- The character of a surrogate pair. -/
def joinSurrogates (high low : Nat) : Char :=
  Char.ofNat (0x10000 + (high - 0xD800) * 0x400 + (low - 0xDC00))

/-- The character of a code and how many of the characters behind it belong to it: six when a low
half follows a high one. A half-written second code is a fault at the place given. -/
def pairUp (n : Nat) (cs : List Char) : Except Nat (Char × Nat) :=
  match cs with
  | '\\' :: 'u' :: e :: f :: g :: h :: _ :: rest =>
    if isHighSurrogate n then
      match Text.ofHex? [e, f, g, h] with
      | none => .error (rest.length + 6)
      | some m => .ok (if isLowSurrogate m then (joinSurrogates n m, 6) else (charOfCode n, 0))
    else .ok (charOfCode n, 0)
  | _ => .ok (charOfCode n, 0)

/-- The rest of a text after its opening quote, which stood `start` characters before the end. -/
def readText (start : Nat) (acc : List Char) : List Char → Step String
  | [] => .error ⟨.unterminatedText, start⟩
  | '"' :: rest => .ok (String.ofList acc.reverse, rest)
  | ['\\'] => .error ⟨.unterminatedText, start⟩
  | '\\' :: 'u' :: a :: b :: c :: d :: next :: rest =>
    match Text.ofHex? [a, b, c, d] with
    | none => .error ⟨.badCodeEscape, rest.length + 6⟩
    | some n =>
      match pairUp n (next :: rest) with
      | .error left => .error ⟨.badCodeEscape, left⟩
      | .ok (char, taken) => readText start (char :: acc) ((next :: rest).drop taken)
  | '\\' :: 'u' :: rest => .error ⟨.badCodeEscape, rest.length + 1⟩
  | '\\' :: c :: rest =>
    match escape? c with
    | some e => readText start (e :: acc) rest
    | none => .error ⟨.badEscape, rest.length + 2⟩
  | c :: rest =>
    if c.toNat < 0x20 then .error ⟨.controlCharacter, rest.length + 1⟩
    else readText start (c :: acc) rest
termination_by cs => cs.length

/-- The fraction at the front of a text: a point with at least one digit behind it. -/
def fraction (cs : List Char) : List Char × List Char :=
  match cs with
  | '.' :: rest => if (digits rest).1.isEmpty then ([], cs) else digits rest
  | _ => ([], cs)

/-- The whole part of a number: a lone zero, or digits that begin with another one. -/
def whole (cs : List Char) : List Char × List Char :=
  match cs with
  | '0' :: rest => (['0'], rest)
  | _ => digits cs

/-- A number: whole when it has neither fraction nor exponent. -/
def readNumber (cs : List Char) : Except Stop (Value × List Char) :=
  let (negative, body) := match cs with
    | '-' :: r => (true, r)
    | _ => (false, cs)
  let (ws, rest) := whole body
  if ws.isEmpty then .error ⟨.expectingValue, cs.length⟩
  else
    let (fs, rest) := fraction rest
    let (e, rest) := exponent rest
    if fs.isEmpty && e.isNone then
      let n : Int := Decimal.ofDigits ws
      if Decimal.longest < ws.length then .error ⟨.tooLong ws.length, rest.length⟩
      else .ok (.int (if negative then -n else n), rest)
    else
      let x := Decimal.ofParts ws fs (e.getD 0)
      .ok (.float (if negative then -x else x), rest)

def words : List (List Char × Value) :=
  [("null".toList, .null), ("true".toList, .bool true), ("false".toList, .bool false),
   ("NaN".toList, .float (0.0 / 0.0)), ("Infinity".toList, .float (1.0 / 0.0)),
   ("-Infinity".toList, .float (-1.0 / 0.0))]

/-- The word at the front of a text. -/
def word? (cs : List Char) : Option (Value × List Char) :=
  words.findSome? fun (w, v) => if w.isPrefixOf cs then some (v, cs.drop w.length) else none

/-- The most lists and maps that may hold one another. -/
def deepest : Nat := 988

mutual

/-- A value inside a number of lists and maps. The fuel bounds the depth and is never used up: each level
takes a character. -/
def readValue (fuel depth : Nat) (cs : List Char) : Except Stop (Value × List Char) :=
  match fuel, cs with
  | 0, _ => .error ⟨.expectingValue, cs.length⟩
  | _, [] => .error ⟨.expectingValue, 0⟩
  | fuel + 1, c :: rest =>
    if c == '"' then (readText cs.length [] rest).map fun (s, r) => (.text s, r)
    else if (c == '\x7b' || c == '[') && deepest ≤ depth then .error ⟨.tooDeep, cs.length⟩
    else if c == '\x7b' then
      match skipBlank rest with
      | '}' :: r => .ok (.map [], r)
      | r => readEntries fuel (depth + 1) [] r
    else if c == '[' then
      match skipBlank rest with
      | ']' :: r => .ok (.list [], r)
      | r => readItems fuel (depth + 1) [] r
    else match word? cs with
      | some found => .ok found
      | none => readNumber cs

/-- The items of a list, from the first on. -/
def readItems (fuel depth : Nat) (acc : List Value) (cs : List Char) :
    Except Stop (Value × List Char) :=
  match fuel with
  | 0 => .error ⟨.expectingValue, cs.length⟩
  | fuel + 1 => do
    let (v, rest) ← readValue fuel depth cs
    match skipBlank rest with
    | ']' :: r => .ok (.list (v :: acc).reverse, r)
    | ',' :: r => readItems fuel depth (v :: acc) (skipBlank r)
    | r => .error ⟨.expectingComma, r.length⟩

/-- The entries of a map, from the first key on. -/
def readEntries (fuel depth : Nat) (acc : List (Value × Value)) (cs : List Char) :
    Except Stop (Value × List Char) :=
  match fuel, cs with
  | 0, _ => .error ⟨.expectingValue, cs.length⟩
  | fuel + 1, '"' :: rest => do
    let (key, rest) ← readText cs.length [] rest
    match skipBlank rest with
    | ':' :: r =>
      let (v, rest) ← readValue fuel depth (skipBlank r)
      let acc := Value.put key v acc
      match skipBlank rest with
      | '}' :: r => .ok (.map acc, r)
      | ',' :: r => readEntries fuel depth acc (skipBlank r)
      | r => .error ⟨.expectingComma, r.length⟩
    | r => .error ⟨.expectingColon, r.length⟩
  | _, _ => .error ⟨.expectingKey, cs.length⟩

end

/-- A whole text: one value between blanks. -/
def readAll (cs : List Char) : Except Stop Value :=
  match cs with
  | '\ufeff' :: _ => .error ⟨.byteOrderMark, cs.length⟩
  | _ => do
    let (v, rest) ← readValue (2 * cs.length + 2) 0 (skipBlank cs)
    match skipBlank rest with
    | [] => .ok v
    | r => .error ⟨.extraData, r.length⟩

/-- A fault and the place where it was met: line and column from one, offset from zero. -/
structure Located where
  fault : Fault
  line : Nat
  column : Nat
  offset : Nat

/-- The place that an offset names. -/
def locate (cs : List Char) (stop : Stop) : Located :=
  let before := cs.take (cs.length - stop.left)
  { fault := stop.fault
    line := before.count '\n' + 1
    column := (before.reverse.takeWhile (· != '\n')).length + 1
    offset := before.length }

def Fault.message : Fault → String
  | .expectingValue => "Expecting value"
  | .expectingKey => "Expecting property name enclosed in double quotes"
  | .expectingColon => "Expecting ':' delimiter"
  | .expectingComma => "Expecting ',' delimiter"
  | .extraData => "Extra data"
  | .unterminatedText => "Unterminated string starting at"
  | .controlCharacter => "Invalid control character at"
  | .badEscape => "Invalid \\escape"
  | .badCodeEscape => "Invalid \\uXXXX escape"
  | .byteOrderMark => "Unexpected UTF-8 BOM (decode using utf-8-sig)"
  | .tooLong digits => Decimal.tooLongToRead digits
  | .tooDeep => "Nested too deeply"

/-- Whether the text itself is wrong, and not only what it asks for. -/
def Fault.isOfText : Fault → Bool
  | .tooLong _ | .tooDeep => false
  | _ => true

def Located.message (l : Located) : String :=
  if l.fault.isOfText then
    s!"{l.fault.message}: line {l.line} column {l.column} (char {l.offset})"
  else l.fault.message

/-- The value written in a text. -/
def read (s : String) : Except Located Value :=
  let cs := s.toList
  (readAll cs).mapError (locate cs)

end TableLoom.Json
