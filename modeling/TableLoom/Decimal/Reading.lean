/-!
Numbers read from their digits, rounded once to the nearest representable value.
-/

namespace TableLoom.Decimal

/-- The number that decimal digits stand for. -/
def ofDigits (ds : List Char) : Nat :=
  ds.foldl (fun n c => 10 * n + (c.toNat - 48)) 0

/-- The value `m * 10 ^ e`. Exponents far outside the representable range are settled first. -/
def ofScaled (m : Nat) (e : Int) : Float :=
  let size := (Nat.toDigits 10 m).length + e
  if m == 0 || size < -400 then 0.0
  else if 400 < size then 1.0 / 0.0
  else Float.ofScientific m (e < 0) e.natAbs

/-- How many digits can tell on which side of the middle between two representable values a number
lies. Of all behind them it only matters whether they are zeros. -/
def tellingDigits : Nat := 800

/-- Digits that round to the same value, and how many places fewer they have. -/
def shorten (ds : List Char) : List Char × Nat :=
  let ds := ds.dropWhile (· == '0')
  let rest := ds.drop tellingDigits
  if rest.all (· == '0') then (ds.take tellingDigits, rest.length)
  else (ds.take tellingDigits ++ ['1'], rest.length - 1)

/-- The value of a whole part, a fraction and an exponent. -/
def ofParts (whole fraction : List Char) (exponent : Int) : Float :=
  let (ds, dropped) := shorten (whole ++ fraction)
  ofScaled (ofDigits ds) (exponent - fraction.length + dropped)

/-- The value of a whole number. -/
def ofInt (n : Int) : Float :=
  if n < 0 then -(ofScaled n.natAbs 0) else ofScaled n.natAbs 0

/-- The digits at the front of a text. -/
def digits (cs : List Char) : List Char × List Char :=
  (cs.takeWhile Char.isDigit, cs.dropWhile Char.isDigit)

/-- The exponent at the front of a text: `e`, a sign or none, and at least one digit. -/
def exponent (cs : List Char) : Option Int × List Char :=
  match cs with
  | c :: rest =>
    if c == 'e' || c == 'E' then
      let (negative, body) := match rest with
        | '-' :: r => (true, r)
        | '+' :: r => (false, r)
        | r => (false, r)
      let (ds, rest') := digits body
      if ds.isEmpty then (none, cs)
      else
        let n : Int := ofDigits ds
        (some (if negative then -n else n), rest')
    else (none, cs)
  | [] => (none, cs)

/-- The number that digits stand for, with an optional fraction and an optional exponent. -/
def ofChars? (cs : List Char) : Option Float :=
  let (whole, rest) := digits cs
  let (fraction, rest) := match rest with
    | '.' :: r => digits r
    | _ => ([], rest)
  let (power, rest) := exponent rest
  if rest.isEmpty && !(whole.isEmpty && fraction.isEmpty) then
    some (ofParts whole fraction (power.getD 0))
  else none

end TableLoom.Decimal
