import TableLoom.Check.Basic
import TableLoom.Text.Surrogate
import TableLoom.Text.Utf8
import TableLoom.Value.Whole

/-!
Checking single values. Numbers, flags and identifiers are also read from their usual spellings.
-/

namespace TableLoom.Check

/-- A text, or what bytes hold as one, with no character in it that is kept for a half. -/
def text : Value → Checked String
  | .text s => if Text.hasHalf s then .flaw .unreadableText else .fits s
  | .bytes b =>
    match Text.Utf8.decode? b with
    | some s => if Text.hasHalf s then .flaw .unreadableText else .fits s
    | none => .flaw .unreadableText
  | _ => .flaw .notText

/-- A text that is not empty. -/
def name (v : Value) : Checked String :=
  (text v).andThen fun s => if s.isEmpty then .flaw .tooShort else .fits s

/-- What is made of a text, also when it comes in bytes; other data is left aside. -/
def spelled? {α : Type} (unreadable : Flaw) (read : String → Checked α) (v : Value) :
    Option (Checked α) :=
  match v with
  | .text s => some (if Text.hasHalf s then .flaw .unreadableText else read s)
  | .bytes b =>
    some (match Text.Utf8.decode? b with
      | some s => read s
      | none => .flaw unreadable)
  | _ => none

def trueWords : List String := ["1", "on", "t", "true", "y", "yes"]
def falseWords : List String := ["0", "off", "f", "false", "n", "no"]

/-- A flag spelled as one of the usual words for yes and no, in any case. -/
def boolOfWord (s : String) : Checked Bool :=
  let word := s.map Char.toLower
  if trueWords.contains word then .fits true
  else if falseWords.contains word then .fits false
  else .flaw .unreadableBool

/-- A flag given by a number: one or zero. -/
def boolOfInt (n : Int) : Checked Bool :=
  if n == 0 then .fits false else if n == 1 then .fits true else .flaw .unreadableBool

/-- The whole number that a float is. -/
def intOfFloat (x : Float) : Checked Int :=
  if x.isNaN || x.isInf then .flaw .notFinite
  else if !Value.isIntegral x then .flaw .fractional
  else if Value.isMachineSized x then .fits (Value.truncate x)
  else .flaw .oversized

/-- A flag: also zero and one, and the usual words. A number counts as one only when it is whole and of
a usual size. -/
def bool (v : Value) : Checked Bool :=
  (spelled? .unreadableBool boolOfWord v).getD <|
    match v with
    | .bool b => .fits b
    | .int n => if isMachineInt n then boolOfInt n else .flaw .notBool
    | .float x =>
      match intOfFloat x with
      | .fits n => boolOfInt n
      | .flawed _ => .flaw .notBool
    | _ => .flaw .notBool

/-- What follows zeros and underscores, and the last of them before a point or the end. -/
def afterZeros (last : Char) : List Char → List Char
  | [] => [last]
  | c :: rest =>
    if c == '0' || c == '_' then afterZeros c rest
    else if c == '.' then last :: c :: rest
    else c :: rest

/-- Digits without the zeros in front. -/
def dropZeros : List Char → List Char
  | '0' :: rest => afterZeros '0' rest
  | cs => cs

/-- Digits without a fraction that consists of zeros. -/
def dropZeroFraction (cs : List Char) : List Char :=
  match cs.dropWhile (· != '.') with
  | _ :: c :: fraction =>
    if (c :: fraction).all (· == '0') then cs.takeWhile (· != '.') else cs
  | _ => cs

/-- Characters without underscores, where these stand alone and inside. -/
def dropUnderscores (cs : List Char) : List Char :=
  if cs.head? != some '_' && Decimal.groupsWell cs then cs.filter (· != '_') else cs

/-- A numeral as it is written at its shortest: without blanks, plus sign, zeros in front, a fraction of
zeros and underscores. What is not padded in one of these ways stays as it is. -/
def unpadded (cs : List Char) : List Char :=
  let cs := match Text.trim Text.isWhite cs with
    | '+' :: '-' :: rest => '+' :: '-' :: rest
    | '+' :: rest => rest
    | cs => cs
  if cs.head? == some '_' then cs else dropUnderscores (dropZeroFraction (dropZeros cs))

/-- The whole number that a text writes at its shortest: a minus sign or none, and digits that begin
with a zero only when they are one. -/
def plainInt (cs : List Char) : Checked Int :=
  let (negative, body) := match cs with
    | '-' :: rest => (true, rest)
    | _ => (false, cs)
  let ds := body.takeWhile Char.isDigit
  if body == ['0'] then .fits 0
  else if ds.isEmpty || ds.head? == some '0' then .flaw .unreadableInt
  else if Decimal.longest < ds.length + (if negative then 1 else 0) then .flaw .oversized
  else if ds.length == body.length then
    let n : Int := Decimal.ofDigits ds
    .fits (if negative then -n else n)
  else .flaw .unreadableInt

/-- A whole number: also a flag, a number without a fraction, or the digits of one. -/
def int (v : Value) : Checked Int :=
  (spelled? .unreadableInt (fun s => plainInt (unpadded s.toList)) v).getD <|
    match v with
    | .int n => .fits n
    | .bool b => .fits (if b then 1 else 0)
    | .float x => intOfFloat x
    | _ => .flaw .notInt

/-- A whole number that is not too small. -/
def atLeast (least : Int) (n : Int) : Checked Int :=
  if n < least then .flaw (.below least) else .fits n

def atMost (most : Int) (n : Int) : Checked Int :=
  if most < n then .flaw (.above most) else .fits n

/-- The number written in a text: between blanks, or with underscores inside. -/
def floatOfText (s : String) : Checked Float :=
  let cs := s.toList
  match (Decimal.number? (Text.trim Text.isWhite cs)).or (Decimal.number? (dropUnderscores cs)) with
  | some x => .fits x
  | none => .flaw .unreadableFloat

/-- A number: also a flag, or a text that writes one. -/
def float (v : Value) : Checked Float :=
  (spelled? .unreadableFloat floatOfText v).getD <|
    match v with
    | .float x => .fits x
    | .int n =>
      let x := Decimal.ofInt n
      if x.isInf then .flaw .notFloat else .fits x
    | .bool b => .fits (if b then 1.0 else 0.0)
    | _ => .flaw .notFloat

/-- Thirty-two digits in base sixteen, in lower case and grouped by hyphens. -/
def hyphenated (ds : List Char) : String :=
  let group (from_ count : Nat) := (ds.drop from_).take count
  String.ofList (group 0 8 ++ '-' :: group 8 4 ++ '-' :: group 12 4 ++ '-' :: group 16 4
    ++ '-' :: group 20 12)

/-- The lengths of the groups between hyphens: one group, or five. -/
def isUuidGrouping (groups : List (List Char)) : Bool :=
  groups.map List.length == [32] || groups.map List.length == [8, 4, 4, 4, 12]

/-- An identifier without the braces or the name of its sort that may enclose it. -/
def bareUuid (cs : List Char) : List Char :=
  match cs with
  | '\x7b' :: rest => if rest.length == 37 && rest.getLast? == some '\x7d' then rest.dropLast else cs
  | _ => if "urn:uuid:".toList.isPrefixOf cs && cs.length == 45 then cs.drop 9 else cs

/-- The identifier that a text writes, with or without hyphens and in any case. -/
def uuidOfText (s : String) : Checked String :=
  let groups := Text.splitChars '-' (bareUuid s.toList)
  let digits := groups.flatten.map Char.toLower
  if isUuidGrouping groups && digits.all (fun c => (Text.hexValue? c).isSome) then
    .fits (hyphenated digits)
  else .flaw .notUuid

/-- An identifier of 128 bits: written out, or as its bytes. -/
def uuid : Value → Checked String
  | .text s => uuidOfText s
  | .bytes b =>
    match (Text.Utf8.decode? b).map uuidOfText, b.size with
    | some (.fits s), _ => .fits s
    | _, 16 => .fits (hyphenated (Text.hexOfBytes b).toList)
    | _, _ => .flaw .notUuid
  | _ => .flaw .notUuid

end TableLoom.Check
