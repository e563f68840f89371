import TableLoom.Generation.Export
import TableLoom.Generation.Package
import TableLoom.Generation.Report
import TableLoom.Schema.Directory
import TableLoom.Schema.Examination

/-!
From fragments to a package on disk: the tables are examined, the accepted ones are rendered, and the
files are exported. A run reports on all stages, and only an undecodable file ends it without a report.
-/

namespace TableLoom.Generation

open Schema (Examination Registry Table)
open Storage (Disk DiskError Path Work)

def renderFiles (c : Config) (tables : List Table) : Except UnknownTable (List SourceFile) := do
  let modules ← tables.mapM fun t => do
    return ({ path := tablePath t.name, content := ← tableText c t tables, table := some t.name }
      : SourceFile)
  let registry : List SourceFile :=
    if c.registry then [{ path := registryPath, content := registryText c tables }] else []
  return modules ++ registry ++ [{ path := packagePath, content := packageText c tables }]

/-- The notes on rendering: one for every module that could be rendered before the first that could
not. -/
def renderNotes (c : Config) (tables : List Table) : List Log.Entry :=
  let module_ (t : Table) : Option Log.Entry := (tableText c t tables).toOption.map fun s =>
    Log.debug "templates" s!"Generated module for '{t.name}': {Text.lineCount s} lines."
  (tables.map module_).takeWhile Option.isSome |>.filterMap id

def renderedNote (files : List SourceFile) (tables : List Table) : Log.Entry :=
  Log.info "generator"
    s!"Code generation complete: {files.length} file(s) for {tables.length} table(s)."

def notes (entries : List Log.Entry) : Work Unit :=
  modify fun d => { d with log := d.log ++ entries }

def examineStage (registry : Registry) (report : Report) : Work (Examination × Report) := do
  let e := registry.examine
  notes (registry.examinationNotes)
  timed "validation"
  let results := e.subjects.map fun s => (s.name, s.findings)
  notes ((e.subjects.filter (·.isRejected)).map fun s =>
    Log.error "generator" s!"Table '{s.name}' rejected:\n{s.findings.report}")
  let detail := s!"{e.accepted.length} accepted, {e.rejected.length} rejected"
  return (e, { report with
    results, accepted := e.accepted, rejected := e.rejected
    stages := report.stages ++ [⟨"Validate Tables", e.isValid, detail⟩] })

def renderStage (c : Config) (tables : List Table) (report : Report) : Work Report := do
  notes (renderNotes c tables)
  let (files, errors) := match renderFiles c tables with
    | .ok files => (files, [])
    | .error e => ([], [s!"Generation failed: KeyError: " ++ Text.quoted e.name])
  notes (if errors.isEmpty then [renderedNote files tables] else errors.map (Log.error "generator"))
  timed "code_generation"
  return { report with
    files, generationErrors := errors
    stages := report.stages ++ [⟨"Code Generation", errors.isEmpty, s!"{files.length} file(s)"⟩] }

/-- The stage that writes the files; a refusal of the disk is reported. -/
def exportStage (c : Config) (out : Path) (report : Report) : Work Report := do
  notes [Log.debug "exporters" s!"PackageExporter initialised: output_dir={out.text}."]
  let stage (success : Bool) (detail : String) :=
    report.stages ++ [(⟨"Export to Filesystem", success, detail⟩ : Stage)]
  let report ← tryCatch
    (do
      let e ← exportFiles c out report.files report.accepted
      let detail := s!"{e.changed.length} changed, {e.unchanged.length} unchanged"
      return { report with manifest := some e.manifest, stages := stage true detail })
    (fun e => do
      if !e.trouble.isRefusal then throw e
      let words := s!"Export failed: {e.name}: {e.message}"
      notes [Log.error "generator" words]
      return { report with exportErrors := [words], stages := stage false "aborted" })
  timed "export"
  return report

def generate (c : Config) (registry : Registry) (output : Option String) (report : Report) :
    Work Report := do
  let out := Path.ofText (output.getD c.outputDir)
  let inputErrors := registry.inputErrors.map (·.message)
  notes (inputErrors.map fun e => Log.error "generator" s!"Unreadable fragment: {e}")
  let report := { report with outputDirectory := out.text, inputErrors }
  let (e, report) ← examineStage registry report
  let report ← renderStage c e.tables report
  if report.generationErrors.isEmpty then return (← exportStage c out report).finish
  else return report.finish

/-- The stage that reads a directory of fragments, and all others. -/
def generateFromDirectory (c : Config) (directory : String) (output : Option String) :
    Work (Except Schema.LoadError Report) := do
  let report : Report := { schemasDirectory := directory }
  let loaded := Schema.Registry.ofDirectory (← get).tree (Path.ofText directory)
  notes (Schema.Registry.directoryNotes (← get).tree (Path.ofText directory))
  match loaded with
  | .ok registry =>
    timed "load_fragments"
    let stage : Stage := ⟨"Load Fragments", true, s!"{registry.entries.length} table(s)"⟩
    return .ok (← generate c registry output { report with stages := [stage] })
  | .error (.noDirectory p) =>
    let words := (Schema.LoadError.noDirectory p).message
    notes [Log.error "generator" s!"Cannot read schemas: {words}"]
    timed "load_fragments"
    return .ok ({ report with
      inputErrors := [words], stages := [⟨"Load Fragments", false, "0 table(s)"⟩] }).finish
  | .error e =>
    timed "load_fragments"
    return .error e

end TableLoom.Generation
