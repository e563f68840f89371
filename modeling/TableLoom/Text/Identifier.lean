/-!
Names that can stand in statements and in emitted source alike.
-/

namespace TableLoom.Text

def isNameStart (c : Char) : Bool :=
  c.isAlpha || c == '_'

def isNameRest (c : Char) : Bool :=
  c.isAlphanum || c == '_'

/-- ASCII letters, digits and underscores, no digit first. -/
def isNameChars : List Char → Bool
  | [] => false
  | c :: rest => isNameStart c && rest.all isNameRest

/-- A text without the one line break that may end it. -/
def dropLineEnd (cs : List Char) : List Char :=
  if cs.getLast? == some '\n' then cs.dropLast else cs

/-- A name; one line break may follow it. -/
def isIdentifier (s : String) : Bool :=
  isNameChars (dropLineEnd s.toList)

/-- A name, or two joined by a point of which the second may be a star; one line break may follow. -/
def isColumnReference (s : String) : Bool :=
  let cs := dropLineEnd s.toList
  let head := cs.takeWhile (· != '.')
  match cs.dropWhile (· != '.') with
  | [] => isNameChars head
  | _ :: tail => isNameChars head && (isNameChars tail || tail == ['*'])

end TableLoom.Text
