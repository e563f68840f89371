/-!
Texts as lines and as lists of parts.
-/

namespace TableLoom.Text

/-- The number of lines; a last line without an end counts. -/
def lineCount (s : String) : Nat :=
  let cs := s.toList
  if cs.isEmpty then 0
  else cs.count '\n' + (if cs.getLast? == some '\n' then 0 else 1)

/-- The parts between the occurrences of a character, at least one. -/
def splitChars (sep : Char) : List Char → List (List Char)
  | [] => [[]]
  | c :: rest =>
    if c == sep then [] :: splitChars sep rest
    else match splitChars sep rest with
      | [] => [[c]]
      | part :: parts => (c :: part) :: parts

/-- The parts of a text between the occurrences of a character. -/
def split (sep : Char) (s : String) : List String :=
  (splitChars sep s.toList).map String.ofList

/-- Parts joined by a separator. -/
def join (sep : String) (parts : List String) : String :=
  sep.intercalate parts

/-- Whether some characters stand one after the other in a list. -/
def containsChars (part : List Char) : List Char → Bool
  | [] => part.isEmpty
  | c :: rest => part.isPrefixOf (c :: rest) || containsChars part rest

/-- Whether a text contains another. -/
def contains (part s : String) : Bool :=
  containsChars part.toList s.toList

/-- Whether one text ends with the other. -/
def endsWith (s tail : String) : Bool :=
  tail.toList.isSuffixOf s.toList

def repeated (n : Nat) (c : Char) : String :=
  String.ofList (List.replicate n c)

/-- A text padded on the right. -/
def padRight (width : Nat) (s : String) : String :=
  s ++ repeated (width - s.length) ' '

/-- A text padded on the left. -/
def padLeft (width : Nat) (s : String) : String :=
  repeated (width - s.length) ' ' ++ s

end TableLoom.Text
