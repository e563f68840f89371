import TableLoom.Catalog.Pull
import TableLoom.CommandLine.Console
import TableLoom.CommandLine.Settings
import TableLoom.Generation.Pipeline

/-!
What a command does. It works on a disk, may ask a database for its catalogs, and ends with an exit
code.
-/

namespace TableLoom.CommandLine

open Generation (Config)
open Generation.Report (Exit)
open Storage (Path Tree)

/-- Why a database cannot be asked: it refuses, as drivers do, or something else goes wrong. -/
inductive Unreachable where
  | refused (reason : String)
  | broken

/-- Where a command runs. -/
structure World where
  tree : Tree := {}
  /-- The database to ask when the command line names none. -/
  url : Option String := none
  connect : String → Except Unreachable Catalog.Source

/-- What ends a command without an exit code. -/
inductive Crash where
  | settings (error : SettingsError)
  | load (error : Schema.LoadError)
  | disk (error : Storage.DiskError)
  | pull (failure : Catalog.Failure)
  | connection

def Crash.message : Crash → String
  | .settings e => e.message
  | .load e => e.message
  | .disk e => e.message
  | .pull (.catalog e) => e.message
  | .pull (.disk e) => e.message
  | .pull .noOutput => Catalog.noOutputMessage
  | .connection => "The database cannot be reached."

/-- How a command ended. -/
structure Ending where
  code : Nat
  console : Console := {}
  /-- The databases that were asked. -/
  urls : List String := []
  tree : Tree

/-- What a command comes to before its last note. -/
structure Course where
  exit : Exit
  console : Console
  urls : List String := []
  tree : Tree

/-- What stands for the description of how to call the program. -/
def usage : String := "<usage>"

def lastLine (s : String) : String :=
  (Text.split '\n' s).getLast?.getD ""

def own (level : String → String → Log.Entry) (text : String) : Log.Entry := level "" text

/-- The lines on what is wrong with tables. -/
def problemLines (r : Generation.Report) : List String :=
  (r.inputErrors.map fun e => s!"✗ {e}")
    ++ (r.rejected.flatMap fun name => s!"✗ table '{name}' rejected" ::
      (r.findings name).errors.map fun f => s!"    [{f.code}] {f.message}")
    ++ r.warnings.map fun w => s!"⚠ {w}"

/-- Whether an error of settings is one of those that a command reports. -/
def SettingsError.isReported : SettingsError → Bool
  | .unreadable (.impossible _) => true
  | .unreadable _ | .refused _ => false
  | _ => true

def generate (w : World) (g : Generate) (k : Console) : Except Crash Course :=
  let path := Path.ofText g.schemas
  match settings w.tree g.config g.overrides with
  | .error e =>
    if e.isReported then .ok ⟨.badInput, k.note (own Log.error e.message), [], w.tree⟩
    else .error (.settings e)
  | .ok c =>
    let relations := if c.relations then "True" else "False"
    let k := k.noteAll [own Log.info s!"Schemas: {path.text}",
      own Log.info s!"Output:  {c.outputDir}", Log.debug "templates" (
        s!"TemplateGenerator initialised (runtime={c.runtimePackage}, relations={relations}).")]
    let (result, disk) := (Generation.generateFromDirectory c path.text none).run { tree := w.tree }
    match result with
    | .error e => .error (.disk e)
    | .ok (.error e) => .error (.load e)
    | .ok (.ok report) =>
      let k := ((k.noteAll disk.log).print report.summary).tellAll (problemLines report)
      .ok ⟨report.exit, k, [], disk.tree⟩

def examinationLines (path : Path) (r : Schema.Registry) (e : Schema.Examination) : List String :=
  let rule := Text.repeated 50 '='
  ["\n" ++ rule, "  Schema Validation Report", rule, s!"  Directory: {path.text}",
    s!"  Tables:    {r.entries.length}", s!"  Accepted:  {e.accepted.length}",
    s!"  Rejected:  {e.rejected.length}"]
    ++ ((e.subjects.filter fun s => !s.findings.isEmpty).map fun s =>
      s!"\n  {s.name}: {s.findings.report}")
    ++ [rule ++ "\n"]

def validate (w : World) (v : Validate) (k : Console) : Except Crash Course :=
  let path := Path.ofText v.schemas
  match Schema.Registry.ofDirectory w.tree path with
  | .error e => .error (.load e)
  | .ok registry =>
    let examined := registry.examine
    let k := k.noteAll (Schema.Registry.directoryNotes w.tree path ++ registry.examinationNotes)
    let k := (examinationLines path registry examined).foldl Console.print k
    let k := k.tellAll (registry.inputErrors.map fun e => s!"✗ {e.message}")
    let exit : Exit :=
      if !registry.inputErrors.isEmpty then .badInput
      else if examined.isValid then .success
      else .rejectedTables
    .ok ⟨exit, k, [], w.tree⟩

/-- The database that a command asks. -/
def databaseUrl (w : World) (p : Pull) : Option String :=
  (p.url.filter (!·.isEmpty)).or (w.url.filter (!·.isEmpty))

def pull (w : World) (p : Pull) (k : Console) : Except Crash Course :=
  let path := Path.ofText p.schemas
  let failed (k : Console) (exit : Exit) (what reason : String) (urls : List String) (t : Tree) :=
    Except.ok (⟨exit, (k.note (own Log.error s!"{what}: {reason}")).tell s!"✗ {reason}", urls, t⟩
      : Course)
  match databaseUrl w p with
  | none =>
    let k := (k.note (own Log.error "No database URL given.")).tell
      "✗ No database URL: pass --database-url or set DATABASE_URL."
    .ok ⟨.badInput, k, [], w.tree⟩
  | some url =>
    let k := k.noteAll [own Log.info s!"Schema:  {p.schema}", own Log.info s!"Output:  {path.text}"]
    match w.connect url with
    | .error .broken => .error .connection
    | .error (.refused reason) => failed k .badInput "Introspection failed" reason [url] w.tree
    | .ok source =>
      let request : Catalog.Request :=
        { schema := p.schema, include_ := p.only, exclude := p.exclude, dryRun := p.reportOnly
          output := some path }
      let pulled := Catalog.pull source request { tree := w.tree }
      let k := k.noteAll pulled.disk.log
      match pulled.result with
      | .ok report => .ok ⟨.success, k.print report.summary, [url], pulled.disk.tree⟩
      | .error (.disk e) =>
        if !e.trouble.isRefusal then .error (.disk e) else
        failed k .failedExport "Cannot write fragments" e.message [url] pulled.disk.tree
      | .error (.catalog (.missingKey key)) => .error (.pull (.catalog (.missingKey key)))
      | .error (.catalog e) => failed k .badInput "Introspection failed" e.message [url] w.tree
      | .error .noOutput => .error (.pull .noOutput)

namespace Command

def schemas : Command → String
  | .generate g => g.schemas
  | .validate v => v.schemas
  | .pull p => p.schemas

def volume : Command → Volume
  | .generate g => g.volume
  | .validate v => v.volume
  | .pull p => p.volume

/-- The paths that the words of a command name. -/
def paths (c : Command) : List Path :=
  let config := match c with
    | .generate g => g.config
    | .validate v => v.config
    | .pull _ => none
  (c.schemas :: config.toList).map Path.ofText

/-- Whether a command reads the directory of fragments, which then has to be there. -/
def readsSchemas : Command → Bool
  | .pull _ => false
  | _ => true

def course (w : World) (k : Console) : Command → Except Crash Course
  | .generate g => CommandLine.generate w g k
  | .validate v => CommandLine.validate w v k
  | .pull p => CommandLine.pull w p k

def run (w : World) (c : Command) : Except Crash Ending :=
  let path := Path.ofText c.schemas
  let k : Console := { volume := c.volume }
  do
    if c.readsSchemas && !(← (w.tree.showsDirectory path).mapError Crash.disk) then
      let words := s!"Schemas directory not found: {path.text}"
      return { code := Exit.badInput.code, tree := w.tree
               console := (k.note (own Log.error words)).tell s!"✗ {words}" }
    let course ← c.course w k
    let last := if course.exit == .success then own Log.info "Completed successfully."
      else own Log.error s!"Failed with exit code {course.exit.code}."
    return { code := course.exit.code, urls := course.urls, tree := course.tree
             console := course.console.note last }

end Command

/-- The exit code of a command line that cannot be followed. -/
def refusalCode : Nat := 2

/-- Follows a command line. -/
def run (w : World) (argv : List String) : Except Crash Ending :=
  match Wish.read argv with
  | .run c => c.run w
  | .help => .ok { code := 0, tree := w.tree, console := { out := usage } }
  | .version => .ok { code := 0, tree := w.tree, console := { out := versionLine ++ "\n" } }
  | .refused program c =>
    let words := s!"{program}: error: {c.message}"
    .ok { code := refusalCode, tree := w.tree, console := { err := s!"{usage} {lastLine words}" } }

/-- Why a command line gives no settings. -/
inductive NoSettings where
  /-- The command line asks for something else, or cannot be followed. -/
  | exit (code : Nat)
  /-- The command has no settings. -/
  | noneTaken
  | error (error : SettingsError)

/-- The settings that a command line gives. -/
def settingsOf (t : Tree) (argv : List String) : Except NoSettings Config :=
  match Wish.read argv with
  | .run (.generate g) => (settings t g.config g.overrides).mapError .error
  | .run (.validate v) => (settings t v.config {}).mapError .error
  | .run (.pull _) => .error .noneTaken
  | .help | .version => .error (.exit 0)
  | .refused _ _ => .error (.exit refusalCode)

def Ending.data (e : Ending) : Value :=
  .ofFields [("exit", .int e.code), ("stdout", .text e.console.out),
    ("stderr", .text e.console.err), ("urls", .texts e.urls)]

end TableLoom.CommandLine
