import TableLoom.Decimal.Numeral
import TableLoom.Decimal.Shortest
import TableLoom.Value.Basic

/-!
Whole numbers taken from other numbers and from texts.
-/

namespace TableLoom.Value

def wholeOfText? (s : String) : Option Int :=
  (Decimal.whole? 10 s.toList).toOption

/-- A finite number without its fraction. -/
def truncate (x : Float) : Int :=
  let b := Decimal.Binary.ofBits x.toBits
  let n : Int := b.floorAt 0
  if x < 0 then -n else n

/-- Whether a finite number has no fraction. -/
def isIntegral (x : Float) : Bool :=
  let b := Decimal.Binary.ofBits x.toBits
  b.q ≥ 0 || b.m % Decimal.pow2 (-b.q).toNat == 0

/-- Whether a number fits in sixty-four bits with a sign; the least such number does not count. -/
def isMachineSized (x : Float) : Bool :=
  -9223372036854775808.0 < x && x < 9223372036854775808.0

end TableLoom.Value
