import TableLoom.Code.Module
import TableLoom.Generation.Manifest
import TableLoom.Storage.Disk

/-!
Files written below a directory. Every file is written, also one that is there already with the same
text; cleaning removes emitted modules that are no longer among the files.
-/

namespace TableLoom.Generation

open Storage (Disk DiskError Path Work)

/-- What an export did: paths with new text, paths whose text was there already, modules removed. -/
structure Exported where
  manifest : Manifest
  changed : List String := []
  unchanged : List String := []
  removed : List String := []

def manifestName : String := "manifest.json"

/-- Whether a text says of itself that it was emitted. -/
def isGenerated (text : String) : Bool :=
  Text.contains Code.generatedNote text

/-- Writes one file, and tells whether its text is new. -/
def writeSource (out : Path) (f : SourceFile) : Work Bool := do
  let target := out.child f.path
  let before ← Disk.textThere? target
  let _ ← Disk.writeFile target f.content
  Disk.note (Log.debug "exporters"
    s!"Wrote file: {f.path} ({f.sizeBytes} bytes, {f.lineCount} lines).")
  return before != some f.content

/-- Writes files in order; those with new text, and the others. -/
def writeSources (out : Path) : List SourceFile → Work (List String × List String)
  | [] => return ([], [])
  | f :: rest => do
    let isNew ← writeSource out f
    let (changed, unchanged) ← writeSources out rest
    return if isNew then (f.path :: changed, unchanged) else (changed, f.path :: unchanged)

/-- Removes the emitted modules among the names, but those to keep. -/
def removeStale (out : Path) (keep : List String) : List String → Work (List String)
  | [] => return []
  | name :: rest => do
    let path := out.child name
    let text ← Disk.textThere? path
    if !keep.contains name && text.any isGenerated then
      Disk.removeFile path
      Disk.note (Log.info "exporters" s!"Removed stale module: {name}")
      return name :: (← removeStale out keep rest)
    else removeStale out keep rest

def moduleNames (out : Path) : Work (List String) := do
  return ((← get).tree.names out.place).filter (Text.endsWith · ".py")

/-- A note on the time that some work took. -/
def timed (label : String) : Work Unit :=
  Disk.note (Log.debug "utils" s!"Timer [{label}]: 0.0000 seconds")

/-- Does some work and notes its time, also when it is refused. -/
def withTimer {α : Type} (label : String) (work : Work α) : Work α := do
  let result ← observing work
  timed label
  ofExcept result
where
  observing (work : Work α) : Work (Except DiskError α) :=
    tryCatch (Except.ok <$> work) fun e => return .error e
  ofExcept (result : Except DiskError α) : Work α :=
    match result with
    | .ok a => return a
    | .error e => throw e

/-- Cleans a directory of the modules that are not to keep, if that is asked for. -/
def clean (c : Config) (out : Path) (keep : List String) : Work (List String) := do
  if c.clean then removeStale out keep (← moduleNames out) else return []

/-- Cleans, writes all files and then the manifest. -/
def writePackage (c : Config) (out : Path) (files : List SourceFile) (tables : List String) :
    Work Exported := do
  let manifest := Manifest.of c files tables
  Disk.ensureDirectory out
  let removed ← clean c out (files.map (·.path))
  let (changed, unchanged) ← writeSources out files
  if c.manifest then
    let _ ← Disk.writeFile (out.child manifestName) manifest.text
  return { manifest, changed, unchanged, removed }

/-- Writes a package and notes what that took. -/
def exportFiles (c : Config) (out : Path) (files : List SourceFile) (tables : List String) :
    Work Exported := do
  let exported ← withTimer "export" (writePackage c out files tables)
  Disk.note (Log.info "exporters"
    (s!"Export finished: {files.length} file(s) written ({exported.changed.length} changed, "
      ++ s!"{exported.unchanged.length} unchanged), {exported.removed.length} removed in 0.000s."))
  return exported

end TableLoom.Generation
