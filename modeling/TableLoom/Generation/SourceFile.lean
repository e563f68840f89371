import TableLoom.Check.Scalar
import TableLoom.Digest.Sha256

/-!
A generated file. Its measures follow from its content.
-/

namespace TableLoom.Generation

open Check (Checked)

structure SourceFile where
  path : String
  content : String
  table : Option String := none
  deriving DecidableEq

namespace SourceFile

def lineCount (f : SourceFile) : Nat := Text.lineCount f.content
def sizeBytes (f : SourceFile) : Nat := f.content.utf8ByteSize
def checksum (f : SourceFile) : String := Digest.ofText f.content

/-- Measures that come with a content that is no text are checked, since they cannot be taken. -/
def readMeasures (entries : List (Value × Value)) : Checked Unit :=
  match Value.find? "content" entries with
  | some (.text _) => .fits ()
  | _ =>
    let count (name : String) : Checked Unit :=
      Check.partOr entries name () fun v =>
        ((Check.int v).andThen (Check.atLeast 0)).map fun _ => ()
    (fun _ _ _ => ()) <$> count "line_count" <*> count "size_bytes"
      <*> Check.partOr entries "checksum" none (Check.optional Check.text)

/-- A content without bytes cannot be measured. -/
def checkContent (entries : List (Value × Value)) : Checked Unit :=
  match Value.find? "content" entries with
  | some (.text s) =>
    match Text.loneHalves? s with
    | some flaw => .flaw (.refused flaw.message)
    | none => .fits ()
  | _ => .fits ()

def read : Value → Checked SourceFile :=
  Check.record "GeneratedFile" fun entries =>
    (checkContent entries).andThen fun _ => SourceFile.mk <$> Check.part entries "path" Check.name
      <*> Check.part entries "content" Check.text
      <*> Check.partOr entries "table_name" none (Check.optional Check.text)
      <* readMeasures entries
      <* Check.noOthers ["path", "content", "table_name", "line_count", "size_bytes", "checksum"]
        entries

/-- Files read one after the other, up to the first that does not fit. -/
def readAll : List Value → Checked (List SourceFile)
  | [] => .fits []
  | v :: rest => (read v).andThen fun f => (f :: ·) <$> readAll rest

def data (f : SourceFile) : Value :=
  .ofFields [("path", .text f.path), ("content", .text f.content),
    ("table_name", .ofText? f.table), ("line_count", .int f.lineCount),
    ("size_bytes", .int f.sizeBytes), ("checksum", .text f.checksum)]

end SourceFile

end TableLoom.Generation
