import TableLoom.Text.Case
import TableLoom.Text.Line

/-!
Paths in a file tree. Steps that lead nowhere are dropped when a path is read; steps back are kept as
they were written and count only when the path is followed.
-/

namespace TableLoom.Storage

/-- A path as the names on its way. -/
structure Path where
  absolute : Bool := false
  parts : List String := []
  deriving DecidableEq

/-- The place in a tree that a path leads to, as the names from where relative paths start. A place
outside begins with steps back, or with the root. -/
abbrev Place := List String

/-- Whether a place is a start of paths or a step back from it, and so always there. -/
def isGiven (p : Place) : Bool :=
  p == ["/"] || p.all (· == "..")

namespace Path

def ofText (s : String) : Path :=
  { absolute := s.toList.head? == some '/'
    parts := (Text.split '/' s).filter fun p => !p.isEmpty && p != "." }

def text (p : Path) : String :=
  let names := Text.join "/" p.parts
  if p.absolute then "/" ++ names else if p.parts.isEmpty then "." else names

/-- The path that follows from here; one from the root stands for itself. -/
def append (p q : Path) : Path :=
  if q.absolute then q else { p with parts := p.parts ++ q.parts }

/-- A relative path from here. -/
def child (p : Path) (s : String) : Path :=
  p.append (ofText s)

def parent (p : Path) : Path := { p with parts := p.parts.dropLast }

def name (p : Path) : String := p.parts.getLast?.getD ""

/-- Goes one step. A step back undoes the last one; from the start of all places it leads outside, and
from the root nowhere. -/
def follow (place : Place) (step : String) : Place :=
  if step != ".." then place ++ [step]
  else match place.getLast? with
    | none | some ".." => place ++ [".."]
    | some "/" => place
    | some _ => place.dropLast

def start (p : Path) : Place :=
  if p.absolute then ["/"] else []

/-- Where the path leads, when all on the way is there. -/
def place (p : Path) : Place :=
  p.parts.foldl follow p.start

/-- The part of a name from its last point on, unless the point is the first or last character. -/
def suffixOf (name : String) : String :=
  let tail := name.toList.reverse.takeWhile (· != '.')
  if tail.isEmpty || name.length ≤ tail.length + 1 then ""
  else "." ++ String.ofList tail.reverse

/-- The suffix of the last name, in lower case. -/
def lowerSuffix (p : Path) : String :=
  Text.lower (suffixOf p.name)

end Path

end TableLoom.Storage
