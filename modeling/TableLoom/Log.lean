/-!
What the parts of the program note while they work.
-/

namespace TableLoom.Log

/-- How much a note matters. -/
inductive Level where
  | debug | info | warning | error
  deriving DecidableEq

namespace Level

def name : Level → String
  | debug => "DEBUG"
  | info => "INFO"
  | warning => "WARNING"
  | error => "ERROR"

/-- Levels in order of weight. -/
def rank : Level → Nat
  | debug => 10
  | info => 20
  | warning => 30
  | error => 40

end Level

/-- A note and the part of the program that made it. -/
structure Entry where
  level : Level
  origin : String
  text : String
  deriving DecidableEq

namespace Entry

/-- The name under which a part makes its notes. -/
def source (e : Entry) : String :=
  if e.origin.isEmpty then "fluentorm" else s!"fluentorm.{e.origin}"

def line (e : Entry) : String :=
  s!"{e.level.name} {e.source}: {e.text}"

/-- Whether a note is weighty enough to be heard. -/
def heard (least : Level) (e : Entry) : Bool :=
  least.rank ≤ e.level.rank

end Entry

def debug (origin text : String) : Entry := ⟨.debug, origin, text⟩
def info (origin text : String) : Entry := ⟨.info, origin, text⟩
def warning (origin text : String) : Entry := ⟨.warning, origin, text⟩
def error (origin text : String) : Entry := ⟨.error, origin, text⟩

end TableLoom.Log
