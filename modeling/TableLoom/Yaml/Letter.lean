/-!
The characters that YAML tells apart.
-/

namespace TableLoom.Yaml

/-- Characters that end a line. -/
def isBreak (c : Char) : Bool :=
  c == '\n' || c == '\r' || c == '\u0085' || c == '\u2028' || c == '\u2029'

def isBlank (c : Char) : Bool := c == ' ' || c == '\t'

/-- What separates the words of a scalar. -/
def isGap (c : Char) : Bool := c == '\x00' || isBlank c || isBreak c

/-- Whether a text starts with something that separates, or is at its end. -/
def separates (cs : List Char) : Bool := cs.head?.all isGap

/-- What a line break stands for inside a scalar. -/
def lineEnd (c : Char) : Char :=
  if c == '\u2028' || c == '\u2029' then c else '\n'

/-- The characters of which a document may consist. -/
def isReadable (c : Char) : Bool :=
  let n := c.toNat
  c == '\t' || c == '\n' || c == '\r' || (0x20 ≤ n && n ≤ 0x7E) || n == 0x85
    || (0xA0 ≤ n && n ≤ 0xD7FF) || (0xE000 ≤ n && n ≤ 0xFFFD) || 0x10000 ≤ n

/-- Letters of names: of anchors, of directives, of tag handles. -/
def isNameLetter (c : Char) : Bool := c.isAlphanum || c == '-' || c == '_'

/-- Three dashes at the start of a line start a document. -/
def startsDocument (cs : List Char) : Bool :=
  "---".toList.isPrefixOf cs && separates (cs.drop 3)

/-- Three points at the start of a line end one. -/
def endsDocument (cs : List Char) : Bool :=
  "...".toList.isPrefixOf cs && separates (cs.drop 3)

def isMarker (cs : List Char) : Bool := startsDocument cs || endsDocument cs

/-- The rest of a line on which only blanks and a comment may stand. -/
def emptyLine? (cs : List Char) : Option (List Char) :=
  let cs := cs.dropWhile (· == ' ')
  let cs := if cs.head? == some '#' then cs.dropWhile (!isBreak ·) else cs
  match cs with
  | [] => some []
  | c :: rest => if isBreak c then some rest else none

end TableLoom.Yaml
