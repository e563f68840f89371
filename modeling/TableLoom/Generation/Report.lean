import TableLoom.Generation.Manifest
import TableLoom.Schema.Finding

/-!
The report on a run of the generator, and the exit code that it calls for.
-/

namespace TableLoom.Generation

open Schema (Findings Finding)

/-- One stage of a run. -/
structure Stage where
  name : String
  success : Bool
  detail : String

structure Report where
  success : Bool := false
  schemasDirectory : String := ""
  outputDirectory : String := ""
  accepted : List String := []
  rejected : List String := []
  results : List (String × Findings) := []
  inputErrors : List String := []
  generationErrors : List String := []
  exportErrors : List String := []
  stages : List Stage := []
  files : List SourceFile := []
  manifest : Option Manifest := none

namespace Report

def totalFiles (r : Report) : Nat := (r.manifest.map (·.totalFiles)).getD 0
def totalBytes (r : Report) : Nat := (r.manifest.map (·.totalBytes)).getD 0
def totalLines (r : Report) : Nat := (r.manifest.map (·.totalLines)).getD 0

/-- The warnings of all tables, each behind its table. -/
def warnings (r : Report) : List String :=
  r.results.flatMap fun (name, findings) => findings.warnings.map fun f => s!"{name}: {f.line}"

/-- What was found in one table. -/
def findings (r : Report) (table : String) : Findings :=
  (r.results.lookup table).getD []

/-- Succeeds when nothing went wrong. -/
def finish (r : Report) : Report :=
  { r with success := r.inputErrors.isEmpty && r.rejected.isEmpty && r.generationErrors.isEmpty
      && r.exportErrors.isEmpty }

/-- Digits in groups of three. -/
def grouped (n : Nat) : String :=
  let rec go : Nat → List Char → List Char
    | _, [] => []
    | 0, c :: rest => ',' :: c :: go 2 rest
    | k + 1, c :: rest => c :: go k rest
  String.ofList (go 3 (toString n).toList.reverse).reverse

def rule (c : Char) : String := Text.repeated 60 c

def stageLine (s : Stage) : String :=
  let mark := if s.success then "✓" else "✗"
  s!"    {mark} " ++ Text.padRight 28 s.name ++ s!"   0.000s  {s.detail}"

/-- A titled list behind a rule, unless it is empty. -/
def listed (title mark : String) (items : List String) : List String :=
  if items.isEmpty then []
  else rule '─' :: s!"  {title} ({items.length}):" :: items.map fun i => s!"    {mark} {i}"

def rejectedLines (r : Report) : List String :=
  if r.rejected.isEmpty then []
  else rule '─' :: s!"  Rejected Tables ({r.rejected.length}):" :: r.rejected.flatMap fun name =>
    s!"    ⊘ {name}" :: (r.findings name).errors.map fun f => s!"        [{f.code}] {f.message}"

def summary (r : Report) : String :=
  let status := if r.success then "✅ SUCCESS" else "❌ FAILED"
  Text.join "\n" ([rule '=', "  FluentORM — Generation Report", rule '=',
    s!"  Status:           {status}", s!"  Schemas:          {r.schemasDirectory}",
    s!"  Output:           {r.outputDirectory}",
    s!"  Tables accepted:  {r.accepted.length}", s!"  Tables rejected:  {r.rejected.length}",
    s!"  Files generated:  {r.totalFiles}", s!"  Total lines:      {grouped r.totalLines}",
    "  Total time:       0.000s", rule '─']
    ++ (if r.stages.isEmpty then [] else "  Pipeline Steps:" :: r.stages.map stageLine)
    ++ listed "Input Errors" "✗" r.inputErrors
    ++ listed "Generation Errors" "✗" r.generationErrors
    ++ listed "Export Errors" "✗" r.exportErrors
    ++ listed "Validation Warnings" "⚠" r.warnings
    ++ rejectedLines r ++ [rule '='])

/-- Why a command ended, as its exit code tells. -/
inductive Exit where
  | success | rejectedTables | failedGeneration | failedExport | badInput
  deriving DecidableEq

def Exit.code : Exit → Nat
  | .success => 0
  | .rejectedTables => 1
  | .failedGeneration => 2
  | .failedExport => 3
  | .badInput => 4

/-- The first thing that went wrong: with the input, then the export, then the generation, and else
with the tables. -/
def exit (r : Report) : Exit :=
  if r.success then .success
  else if !r.inputErrors.isEmpty then .badInput
  else if !r.exportErrors.isEmpty then .failedExport
  else if !r.generationErrors.isEmpty then .failedGeneration
  else .rejectedTables

def data (r : Report) : Value :=
  let counts : List Value := [.int r.totalFiles, .int r.totalBytes, .int r.totalLines]
  let stages := r.stages.map fun s => .list [.text s.name, .bool s.success, .text s.detail]
  let manifest := match r.manifest with
    | some m => m.both
    | none => .null
  .ofFields [("success", .bool r.success), ("schemas_directory", .text r.schemasDirectory),
    ("output_directory", .text r.outputDirectory), ("accepted", .texts r.accepted),
    ("rejected", .texts r.rejected), ("input_errors", .texts r.inputErrors),
    ("generation_errors", .texts r.generationErrors), ("export_errors", .texts r.exportErrors),
    ("totals", .list counts), ("steps", .list stages), ("warnings", .texts r.warnings),
    ("summary", .text r.summary), ("manifest", manifest),
    ("files", .texts (r.files.map (·.path))), ("exit_code", .int r.exit.code)]

end Report

end TableLoom.Generation
