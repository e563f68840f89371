import TableLoom.Decimal.Reading
import TableLoom.Text.Blank
import TableLoom.Text.Digit
import TableLoom.Text.Quoted

/-!
Numbers as people write them: between blanks, with a sign, in the digits of any script, and with single
underscores between the digits of a whole number. Whole numbers of very many decimal digits are refused.
-/

namespace TableLoom.Decimal

/-- The most decimal digits that a whole number is read from or written with. -/
def longest : Nat := 4300

/-- What is said of a text with too many digits. -/
def tooLongToRead (digits : Nat) : String :=
  s!"Exceeds the limit ({longest} digits) for integer string conversion: "
    ++ s!"value has {digits} digits; use sys.set_int_max_str_digits() to increase the limit"

/-- What is said of a number with too many digits. -/
def tooLongToWrite : String :=
  s!"Exceeds the limit ({longest} digits) for integer string conversion; "
    ++ "use sys.set_int_max_str_digits() to increase the limit"

/-- Whether a number can be written in decimal digits. -/
def isWritable (n : Int) : Bool :=
  n.natAbs < Nat.pow 10 longest

/-- Why a text is no whole number. -/
inductive Refusal where
  | noNumeral
  | tooLong (digits : Nat)
  deriving DecidableEq

/-- What is said of a text that is no whole number in a base, given as messages quote it. -/
def Refusal.message (r : Refusal) (base : Nat) (shown : String) : String :=
  match r with
  | .noNumeral =>
    s!"invalid literal for int() with base {base}: " ++ String.ofList (shown.toList.take 200)
  | .tooLong digits => tooLongToRead digits

/-- A sign in front of a number, and what follows it. -/
def signed (cs : List Char) : Bool × List Char :=
  match cs with
  | '-' :: rest => (true, rest)
  | '+' :: rest => (false, rest)
  | _ => (false, cs)

/-- What follows the mark of a base, which may stand in front of the digits. -/
def dropMark (base : Nat) (cs : List Char) : List Char :=
  let mark (letter : Char) : List Char := match cs with
    | '0' :: c :: rest => if c.toLower == letter then rest else cs
    | _ => cs
  match base with
  | 2 => mark 'b'
  | 8 => mark 'o'
  | 16 => mark 'x'
  | _ => cs

def isDigitOf (base : Nat) (c : Char) : Bool :=
  (Text.hexValue? c).any (· < base)

/-- Whether underscores stand alone and between digits only. -/
def groupsWell : List Char → Bool
  | [] => true
  | ['_'] => false
  | '_' :: '_' :: _ => false
  | _ :: rest => groupsWell rest

/-- The number that digits stand for in a base. -/
def ofDigitsIn (base : Nat) (ds : List Char) : Nat :=
  ds.foldl (fun n c => base * n + (Text.hexValue? c).getD 0) 0

/-- The whole number written in a text. Only in base ten does the number of digits matter. -/
def whole? (base : Nat) (cs : List Char) : Except Refusal Int :=
  let (negative, body) := signed (Text.trim Text.isWhite (cs.map Text.asciiDigit))
  let body := dropMark base body
  let run := body.takeWhile fun c => isDigitOf base c || c == '_'
  let ds := run.filter (· != '_')
  if run.head? == some '_' || !groupsWell run then .error .noNumeral
  else if base == 10 && longest < ds.length then .error (.tooLong ds.length)
  else if ds.isEmpty || run.length != body.length then .error .noNumeral
  else
    let n : Int := if base == 10 then ofDigits ds else ofDigitsIn base ds
    .ok (if negative then -n else n)

/-- The number written in a text: digits with an optional fraction and exponent, or the name of an
infinity or of no number. -/
def number? (cs : List Char) : Option Float :=
  let (negative, body) := signed cs
  let positive :=
    let word := String.ofList (body.map Char.toLower)
    if word == "inf" || word == "infinity" then some (1.0 / 0.0)
    else if word == "nan" then some (0.0 / 0.0)
    else ofChars? body
  positive.map fun x => if negative then -x else x

/-- The same between blanks, and in the digits of any script. -/
def anyNumber? (cs : List Char) : Option Float :=
  number? (Text.trim Text.isWhite (cs.map Text.asciiDigit))

end TableLoom.Decimal
