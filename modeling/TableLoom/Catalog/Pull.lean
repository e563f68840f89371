import TableLoom.Catalog.Fragment
import TableLoom.Storage.Disk

/-!
Pulling a database's schema: its tables are read from the catalogs, turned into fragments, and written
to a file each.
-/

namespace TableLoom.Catalog

open Storage (Disk DiskError Path Tree)

/-- Tables in which tools keep what they have done to a database. -/
def bookkeeping : List String :=
  ["schema_migrations", "_prisma_migrations", "knex_migrations", "knex_migrations_lock",
    "typeorm_metadata", "ar_internal_metadata", "__diesel_schema_migrations",
    "flyway_schema_history", "databasechangelog", "databasechangeloglock", "alembic_version"]

/-- What to pull, and where to. -/
structure Request where
  schema : String := "public"
  include_ : Option (List String) := none
  exclude : List String := []
  dryRun : Bool := false
  /-- Where the files go. Only a dry run does without. -/
  output : Option Path

def Request.wants (r : Request) (table : String) : Bool :=
  !bookkeeping.contains table && !r.exclude.contains table && r.include_.all (·.contains table)

/-- Tables that are asked for by name and are not there, in order. -/
def Request.absent (r : Request) (tables : List String) : List String :=
  (((r.include_.getD []).filter fun t => !tables.contains t).eraseDups).mergeSort (· ≤ ·)

def allTables (source : Source) (schema : String) : Reading (List String) := do
  let answer ← ask source ⟨.schemaExists, schema, none⟩
  match answer with
  | ((_, v) :: _) :: _ => if !v.truthy then throw (.noSchema schema)
  | _ => throw (.noSchema schema)
  (← ask source ⟨.tables, schema, none⟩).mapM fun row =>
    match need "table_name" row with
    | .ok name => return name
    | .error e => throw e

/-- What pulling came to. -/
structure Report where
  request : Request
  tables : List Shape := []
  fragments : List Schema.Fragment := []
  written : List String := []
  warnings : List String := []

/-- The fragments of all tables, and the warnings on them. -/
def convert (tables : List Shape) : List Schema.Fragment × List String :=
  let converted := tables.map fun t => (t.name, toFragment t tables)
  (converted.filterMap fun (_, f, _) => f.toOption,
    converted.flatMap fun (name, f, warnings) =>
      match f with
      | .ok _ => warnings
      | .error e => warnings ++ [s!"{name}: not convertible ({e.reason})"])

/-- A pull that was not completed. -/
inductive Failure where
  /-- There are files to write and no place for them. -/
  | noOutput
  | catalog (error : PullError)
  | disk (error : DiskError)

def readNotes (r : Request) (all : List String) (tables : List Shape) : List Log.Entry :=
  (r.absent all).map (fun t => Log.warning "introspection"
      s!"Included table '{t}' not found in schema '{r.schema}'.")
    ++ tables.map fun t => Log.debug "introspection"
      (s!"Introspected {t.name}: {t.columns.length} columns, {t.foreignKeys.length} foreign keys, "
        ++ s!"{t.indexes.length} indexes")

/-- The tables that can be read before the first that cannot. -/
def readable (source : Source) (schema : String) (tables : List String) : List Shape :=
  ((tables.map fun t => ((readShape source schema t).run []).1).takeWhile Except.isOk).filterMap
    Except.toOption

/-- Writes the file of one fragment and gives its name. -/
def writeFragment (output : Path) (f : Schema.Fragment) : Storage.Work String := do
  let path := output.child (fragmentFile f.table)
  let _ ← Disk.writeFile path (fragmentText f)
  Disk.note (Log.info "introspection" s!"Wrote {path.text}")
  return path.name

/-- Writes all fragments, unless nothing is to be written. -/
def writeFragments (r : Request) (fragments : List Schema.Fragment) :
    Storage.Work (List String) := do
  match r.dryRun, r.output with
  | false, some output => do
    Disk.ensureDirectory output
    fragments.mapM (writeFragment output)
  | _, _ => return []

def noOutputMessage : String := "output_dir is required unless dry_run is set."

/-- The result of a pull with the questions it asked and the disk as it left it. -/
structure Pulled where
  result : Except Failure Report
  questions : List Question
  disk : Disk

/-- The note on the time that a pull took. -/
def pullTimer : Log.Entry :=
  Log.debug "utils" "Timer [pull]: 0.0000 seconds"

/-- Pulls a schema. -/
def pull (source : Source) (r : Request) (disk : Disk) : Pulled :=
  let add (d : Disk) (es : List Log.Entry) : Disk := { d with log := d.log ++ es }
  if !r.dryRun && r.output.isNone then ⟨.error .noOutput, [], disk⟩ else
  let (listed, asked) := (allTables source r.schema).run []
  match listed with
  | .error e => ⟨.error (.catalog e), asked, add disk [pullTimer]⟩
  | .ok all =>
    let wanted := all.filter r.wants
    let (shapes, asked) := (wanted.mapM (readShape source r.schema)).run asked
    match shapes with
    | .error e =>
      let notes := readNotes r all (readable source r.schema wanted)
      ⟨.error (.catalog e), asked, add disk (notes ++ [pullTimer])⟩
    | .ok tables =>
      let (fragments, warnings) := convert tables
      let (written, disk) := (writeFragments r fragments).run (add disk (readNotes r all tables))
      match written with
      | .error e => ⟨.error (.disk e), asked, add disk [pullTimer]⟩
      | .ok written =>
        let notes := pullTimer :: warnings.map (Log.warning "introspection")
          ++ [Log.info "introspection" (s!"Pulled {tables.length} table(s) from schema "
            ++ s!"'{r.schema}' ({written.length} written).")]
        ⟨.ok { request := r, tables, fragments, written, warnings }, asked, add disk notes⟩

namespace Report

def rule (c : Char) : String := Text.repeated 60 c

def tableLine (t : Shape) : String :=
  s!"    " ++ Text.padRight 28 t.name ++ " " ++ Text.padLeft 3 (toString t.columns.length)
    ++ " columns  " ++ Text.padLeft 2 (toString t.foreignKeys.length) ++ " foreign keys  "
    ++ Text.padLeft 2 (toString t.indexes.length) ++ " indexes"

def outputText (r : Report) : String := (r.request.output.map Path.text).getD ""

def summary (r : Report) : String :=
  let output := if r.request.dryRun then "(dry run)" else r.outputText
  Text.join "\n" ([rule '=', "  FluentORM: Schema Pull Report", rule '=',
    s!"  Schema:           {r.request.schema}", s!"  Output:           {output}",
    s!"  Tables:           {r.tables.length}", s!"  Fragments:        {r.written.length} written",
    "  Total time:       0.000s", rule '─']
    ++ r.tables.map tableLine
    ++ (if r.warnings.isEmpty then [] else
      rule '─' :: s!"  Warnings ({r.warnings.length}):" :: r.warnings.map fun w => s!"    ⚠ {w}")
    ++ [rule '='])

end Report

end TableLoom.Catalog
