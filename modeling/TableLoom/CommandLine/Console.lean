import TableLoom.CommandLine.Command
import TableLoom.Log

/-!
What a command shows: lines of output, and beside them complaints and notes.
-/

namespace TableLoom.CommandLine

/-- What has been shown, and how much of the notes is shown. -/
structure Console where
  out : String := ""
  err : String := ""
  volume : Volume := {}

namespace Console

/-- Shows a line of output. -/
def print (k : Console) (line : String) : Console :=
  { k with out := k.out ++ line ++ "\n" }

/-- Shows a line beside the output. -/
def tell (k : Console) (line : String) : Console :=
  { k with err := k.err ++ line ++ "\n" }

def tellAll (k : Console) (lines : List String) : Console :=
  lines.foldl tell k

/-- A note as it is shown. -/
def stamped (e : Log.Entry) : String :=
  s!"00:00:00 │ {Text.padRight 8 e.level.name} │ {e.source} │ {e.text}"

/-- Shows a note, if it is weighty enough. -/
def note (k : Console) (e : Log.Entry) : Console :=
  if k.volume.least?.any e.heard then k.tell (stamped e) else k

def noteAll (k : Console) (es : List Log.Entry) : Console :=
  es.foldl note k

end Console

end TableLoom.CommandLine
