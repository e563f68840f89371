import TableLoom.Text.Line
import TableLoom.Value.Literal

/-!
What an examination of schemas brings to light, and the report on it.
-/

namespace TableLoom.Schema

inductive Severity where
  | error | warning
  deriving DecidableEq

def Severity.name : Severity → String
  | error => "error"
  | warning => "warning"

/-- One finding, with the circumstances that it was made in. -/
structure Finding where
  severity : Severity
  code : String
  message : String
  context : List (String × Value) := []

namespace Finding

def isError (f : Finding) : Bool := f.severity == .error

def line (f : Finding) : String :=
  let mark := if f.isError then "ERROR" else "WARNING"
  s!"[{mark}] {f.code}: {f.message}"

/-- The finding and its circumstances, a line each. -/
def paragraph (f : Finding) : List String :=
  let mark := if f.isError then "✗" else "⚠"
  s!"  {mark} [{f.code}] {f.message}" ::
    f.context.map fun (key, v) => s!"       {key}: " ++ v.display

end Finding

/-- Findings in the order in which they were made. -/
abbrev Findings := List Finding

namespace Findings

def errors (fs : Findings) : List Finding := fs.filter Finding.isError
def warnings (fs : Findings) : List Finding := fs.filter fun f => !f.isError
def codes (fs : Findings) : List String := fs.map (·.code)

/-- Nothing but warnings. -/
def isValid (fs : Findings) : Bool := !fs.any Finding.isError

def summary (fs : Findings) : String :=
  s!"Validation: {(errors fs).length} error(s), {(warnings fs).length} warning(s)."

/-- The summary and below it every finding. -/
def report (fs : Findings) : String :=
  Text.join "\n" (summary fs :: fs.flatMap Finding.paragraph)

end Findings

end TableLoom.Schema
