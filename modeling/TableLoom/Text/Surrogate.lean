import TableLoom.Text.Hex

/-!
Halves of surrogate pairs. Data may hold half of a pair on its own. No character stands for it, so a text
keeps it as the private character whose code is higher by `0x100000`.
-/

namespace TableLoom.Text

/-- How far a half is moved. -/
def halfOffset : Nat := 0x100000

/-- The character that is kept for the half with a code. -/
def ofHalf (code : Nat) : Char :=
  Char.ofNat (halfOffset + code)

/-- Whether a character is kept for a half. -/
def isHalf (c : Char) : Bool :=
  halfOffset + 0xD800 ≤ c.toNat && c.toNat < halfOffset + 0xE000

/-- The code of a character, or of the half that it is kept for. -/
def codeOf (c : Char) : Nat :=
  if isHalf c then c.toNat - halfOffset else c.toNat

/-- Whether a text holds halves, and so is no text that can be written to a file. -/
def hasHalf (s : String) : Bool :=
  s.toList.any isHalf

/-- The first halves of a text that stand together: where the first one is, its code, and how many
there are. -/
structure LoneHalves where
  first : Nat
  code : Nat
  count : Nat
  deriving DecidableEq

/-- The first halves of a text, if it has any. -/
def loneHalves? (s : String) : Option LoneHalves :=
  let before := s.toList.takeWhile (!isHalf ·)
  match s.toList.dropWhile (!isHalf ·) with
  | [] => none
  | c :: rest => some ⟨before.length, codeOf c, 1 + (rest.takeWhile isHalf).length⟩

def LoneHalves.message (h : LoneHalves) : String :=
  let place :=
    if h.count == 1 then
      s!"character '\\u{String.ofList (hexPadded 4 h.code)}' in position {h.first}"
    else s!"characters in position {h.first}-{h.first + h.count - 1}"
  s!"'utf-8' codec can't encode {place}: surrogates not allowed"

end TableLoom.Text
