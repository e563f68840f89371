/-!
The fewest decimal digits that identify a binary number, and how they are written. A decimal reads
back to a number when it lies among the reals that round to it; of the shortest such decimals the
nearest is taken, and of two equally near ones the even one. All arithmetic is exact.
-/

namespace TableLoom.Decimal

def pow2 (n : Nat) : Nat := Nat.pow 2 n
def pow10 (n : Nat) : Nat := Nat.pow 10 n

/-- A finite magnitude `m * 2 ^ q`. -/
structure Binary where
  m : Nat
  q : Int
  /-- The gap to the value below is half the gap to the value above. -/
  narrowBelow : Bool

/-- The magnitude held by the bits of a finite number. -/
def Binary.ofBits (b : UInt64) : Binary :=
  let e := ((b >>> 52) &&& 0x7FF).toNat
  let f := (b &&& 0xFFFFFFFFFFFFF).toNat
  if e == 0 then ⟨f, -1074, false⟩ else ⟨pow2 52 + f, (e : Int) - 1075, f == 0 && e > 1⟩

/-- A decimal `digits * 10 ^ exponent`. -/
structure Scaled where
  digits : Nat
  exponent : Int
  deriving DecidableEq

/-- Compares `a * 10 ^ i` with `n * 2 ^ j`. -/
def compareScaled (a : Nat) (i : Int) (n : Nat) (j : Int) : Ordering :=
  compare (a * pow10 i.toNat * pow2 (-j).toNat) (n * pow2 j.toNat * pow10 (-i).toNat)

/-- The decimal lies among the reals that round to the number; the ends count when `m` is even. -/
def Binary.readsBack (x : Binary) (d : Scaled) : Bool :=
  let low := if x.narrowBelow then 4 * x.m - 1 else 4 * x.m - 2
  let high := 4 * x.m + 2
  let ends := x.m % 2 == 0
  let below := compareScaled d.digits d.exponent low (x.q - 2)
  let above := compareScaled d.digits d.exponent high (x.q - 2)
  (below == .gt || (ends && below == .eq)) && (above == .lt || (ends && above == .eq))

/-- Raises an estimate until `m * 2 ^ q < 10 ^ k`. -/
def Binary.raiseScale (x : Binary) : Nat → Int → Int
  | 0, k => k
  | fuel + 1, k =>
    if compareScaled 1 k x.m x.q == .gt then k else x.raiseScale fuel (k + 1)

/-- The number of digits before the point: the least `k` with `m * 2 ^ q < 10 ^ k`. -/
def Binary.scale (x : Binary) : Int :=
  let log := (x.m.log2 : Int) + x.q
  x.raiseScale 8 (Int.fdiv (log * 30103) 100000 - 1)

/-- The multiple of `10 ^ e` at or below the number. -/
def Binary.floorAt (x : Binary) (e : Int) : Nat :=
  (x.m * pow2 x.q.toNat * pow10 (-e).toNat) / (pow2 (-x.q).toNat * pow10 e.toNat)

/-- The nearer neighbour on the grid of `10 ^ e` that reads back, if either does. -/
def Binary.onGrid? (x : Binary) (e : Int) : Option Scaled :=
  let n := x.floorAt e
  let lower : Scaled := ⟨n, e⟩
  let upper : Scaled := ⟨n + 1, e⟩
  match x.readsBack lower, x.readsBack upper with
  | true, false => some lower
  | false, true => some upper
  | false, false => none
  | true, true =>
    match compareScaled (2 * n + 1) e (2 * x.m) x.q with
    | .gt => some lower
    | .lt => some upper
    | .eq => some (if n % 2 == 0 then lower else upper)

/-- Drops trailing zeros into the exponent. -/
def Scaled.strip : Nat → Scaled → Scaled
  | 0, d => d
  | fuel + 1, d =>
    if d.digits != 0 && d.digits % 10 == 0 then Scaled.strip fuel ⟨d.digits / 10, d.exponent + 1⟩
    else d

/-- The number itself, written out in full. -/
def Binary.exact (x : Binary) : Scaled :=
  ⟨x.m * pow2 x.q.toNat * Nat.pow 5 (-x.q).toNat, if x.q < 0 then x.q else 0⟩

/-- The fewest digits that read back. -/
def Binary.shortest (x : Binary) : Scaled :=
  if x.m == 0 then ⟨0, 0⟩
  else
    let k := x.scale
    let hit := (List.range 17).findSome? fun n => x.onGrid? (k - (n + 1 : Nat))
    (hit.getD x.exact).strip 400

/-- Lays digits out: positionally from 10 ^ -4 up to below 10 ^ 16, else with an exponent of at
least two digits. A whole number keeps a zero after the point. -/
def layout (d : Scaled) : String :=
  let ds := Nat.toDigits 10 d.digits
  let lead : Int := d.exponent + ds.length - 1
  if d.digits == 0 then "0.0"
  else if -4 ≤ lead && lead < 16 then
    if lead < 0 then
      String.ofList ('0' :: '.' :: List.replicate (-lead - 1).toNat '0' ++ ds)
    else
      let whole := lead.toNat + 1
      let padded := ds ++ List.replicate (whole - ds.length) '0'
      let fraction := padded.drop whole
      String.ofList (padded.take whole ++ '.' :: (if fraction.isEmpty then ['0'] else fraction))
  else
    let mantissa := match ds with
      | [] => []
      | [c] => [c]
      | c :: rest => c :: '.' :: rest
    let power := Nat.toDigits 10 lead.natAbs
    let power := if power.length < 2 then '0' :: power else power
    String.ofList (mantissa ++ 'e' :: (if lead < 0 then '-' else '+') :: power)

/-- A number in the fewest digits that identify it. -/
def render (x : Float) : String :=
  if x.isNaN then "nan"
  else
    let sign := if x.toBits >>> 63 == 1 then "-" else ""
    if x.isInf then sign ++ "inf"
    else sign ++ layout (Binary.ofBits x.toBits).shortest

end TableLoom.Decimal
