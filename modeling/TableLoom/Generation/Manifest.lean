import TableLoom.Generation.Config
import TableLoom.Generation.SourceFile
import TableLoom.Json.Writer

/-!
The list of all files of a package with their measures. It depends on the files alone: they are listed
by path, and nothing tells when they were made.
-/

namespace TableLoom.Generation

/-- The version that manifests name. -/
def version : String := "0.1.0"

structure Manifest where
  runtimePackage : String
  tables : List String
  files : List SourceFile

namespace Manifest

def of (c : Config) (files : List SourceFile) (tables : List String) : Manifest :=
  { runtimePackage := c.runtimePackage, tables
    files := files.mergeSort fun a b => a.path ≤ b.path }

def totalFiles (m : Manifest) : Nat := m.files.length
def totalBytes (m : Manifest) : Nat := m.files.foldr (·.sizeBytes + ·) 0
def totalLines (m : Manifest) : Nat := m.files.foldr (·.lineCount + ·) 0

/-- A file's measures, by keys in order. -/
def fileData (f : SourceFile) : Value :=
  .ofFields [("line_count", .int f.lineCount), ("relative_path", .text f.path),
    ("sha256", .text f.checksum), ("size_bytes", .int f.sizeBytes)]

def data (m : Manifest) : Value :=
  .ofFields [("files", .list (m.files.map fileData)), ("generator_version", .text version),
    ("runtime_package", .text m.runtimePackage), ("tables", .texts m.tables),
    ("total_bytes", .int m.totalBytes), ("total_files", .int m.totalFiles),
    ("total_lines", .int m.totalLines)]

/-- The manifest as its file holds it. -/
def text (m : Manifest) : String :=
  Json.indented 0 m.data ++ "\n"

/-- The manifest as data and as text. -/
def both (m : Manifest) : Value :=
  .ofFields [("dict", m.data), ("json", .text m.text)]

end Manifest

end TableLoom.Generation
