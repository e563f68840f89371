/-!
Bytes written in base sixty-four. Characters that are no digits do not count, and padding that completes
a group ends the text.
-/

namespace TableLoom.Text

def base64Value? (c : Char) : Option Nat :=
  if 'A' ≤ c && c ≤ 'Z' then some (c.toNat - 65)
  else if 'a' ≤ c && c ≤ 'z' then some (c.toNat - 71)
  else if '0' ≤ c && c ≤ '9' then some (c.toNat + 4)
  else if c == '+' then some 62
  else if c == '/' then some 63
  else none

/-- The bytes of a text, behind a number of digits of the present group, of which some bits are left, and a
number of padding signs. -/
def base64From (digits bits pads : Nat) : List Char → Option (List UInt8)
  | [] => if digits == 0 then some [] else none
  | c :: rest =>
    if c == '=' then
      if 2 ≤ digits && 4 ≤ digits + pads + 1 then some []
      else base64From digits bits (if 2 ≤ digits then pads + 1 else pads) rest
    else match base64Value? c with
      | none => base64From digits bits pads rest
      | some n =>
        let all := 64 * bits + n
        match digits with
        | 0 => base64From 1 n 0 rest
        | 1 => (base64From 2 (all % 16) 0 rest).map (UInt8.ofNat (all / 16) :: ·)
        | 2 => (base64From 3 (all % 4) 0 rest).map (UInt8.ofNat (all / 4) :: ·)
        | _ => (base64From 0 0 0 rest).map (UInt8.ofNat all :: ·)

/-- The bytes that a text of ASCII characters stands for. -/
def bytesOfBase64? (cs : List Char) : Option ByteArray :=
  if cs.all (·.toNat < 128) then (base64From 0 0 0 cs).map fun bs => ⟨bs.toArray⟩ else none

end TableLoom.Text
