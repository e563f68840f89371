import TableLoom.Text.Hex

/-!
Texts out of bytes. A byte sequence that no character has is either refused or replaced: the longest
part of it that some character begins with counts as one unit, and so does a byte that begins none.
-/

namespace TableLoom.Text.Utf8

/-- Where reading stands between two bytes: at a character's start, or inside one, with the number of
bytes still to come, the bits gathered and the bounds of the next byte. -/
inductive State where
  | start
  | inside (missing bits low high : Nat)

/-- What a reader has made of the bytes so far: characters, last one first, and `none` for each unit
that is no character. -/
structure Progress where
  state : State := .start
  units : List (Option Char) := []

/-- A byte at the start of a character. -/
def Progress.first (p : Progress) (b : Nat) : Progress :=
  let goOn (missing bits low high : Nat) : Progress :=
    { p with state := .inside missing bits low high }
  if b < 0x80 then { p with state := .start, units := some (Char.ofNat b) :: p.units }
  else if 0xC2 ≤ b && b ≤ 0xDF then goOn 1 (b - 0xC0) 0x80 0xBF
  else if b == 0xE0 then goOn 2 0 0xA0 0xBF
  else if b == 0xED then goOn 2 (b - 0xE0) 0x80 0x9F
  else if 0xE1 ≤ b && b ≤ 0xEF then goOn 2 (b - 0xE0) 0x80 0xBF
  else if b == 0xF0 then goOn 3 0 0x90 0xBF
  else if 0xF1 ≤ b && b ≤ 0xF3 then goOn 3 (b - 0xF0) 0x80 0xBF
  else if b == 0xF4 then goOn 3 (b - 0xF0) 0x80 0x8F
  else { p with state := .start, units := none :: p.units }

def Progress.next (p : Progress) (byte : UInt8) : Progress :=
  let b := byte.toNat
  match p.state with
  | .start => p.first b
  | .inside missing bits low high =>
    if low ≤ b && b ≤ high then
      let bits := 64 * bits + (b - 0x80)
      if missing ≤ 1 then { p with state := .start, units := some (Char.ofNat bits) :: p.units }
      else { p with state := .inside (missing - 1) bits 0x80 0xBF }
    else Progress.first { p with units := none :: p.units } b

def units (bytes : List UInt8) : List (Option Char) :=
  let p := bytes.foldl Progress.next {}
  match p.state with
  | .start => p.units.reverse
  | .inside .. => (none :: p.units).reverse

/-- The text, when every unit is a character. -/
def decode? (bytes : ByteArray) : Option String :=
  ((units bytes.toList).mapM id).map String.ofList

/-- The text, with the replacement character for every other unit. -/
def decode (bytes : ByteArray) : String :=
  String.ofList ((units bytes.toList).map (·.getD '\ufffd'))

/-- The first place where bytes are no text: the bytes from one place up to another, and why. -/
structure Flaw where
  first : Nat
  byte : UInt8
  length : Nat
  reason : String
  deriving DecidableEq

def Flaw.message (f : Flaw) : String :=
  let place :=
    if f.length ≤ 1 then
      s!"byte 0x{String.ofList (hexPadded 2 f.byte.toNat)} in position {f.first}"
    else s!"bytes in position {f.first}-{f.first + f.length - 1}"
  s!"'utf-8' codec can't decode {place}: {f.reason}"

/-- Finds the first flaw in some bytes. Inside a character, `first` is the place of its first byte and
`length` the number of its bytes so far. -/
def findFlaw (state : State) (first length : Nat) (lead : UInt8) : List UInt8 → Flaw
  | [] => ⟨first, lead, length, "unexpected end of data"⟩
  | b :: rest =>
    let p := Progress.next { state } b
    match state, p.state, p.units.any Option.isNone with
    | .start, .start, false => findFlaw .start (first + 1) 0 b rest
    | .start, q, false => findFlaw q first 1 b rest
    | .start, _, true => ⟨first, b, 1, "invalid start byte"⟩
    | .inside .., .start, false => findFlaw .start (first + length + 1) 0 b rest
    | .inside .., q, false => findFlaw q first (length + 1) lead rest
    | .inside .., _, true => ⟨first, lead, length, "invalid continuation byte"⟩

/-- The first flaw in bytes that are no text. -/
def flaw (bytes : ByteArray) : Flaw :=
  findFlaw .start 0 0 0 bytes.toList

end TableLoom.Text.Utf8
