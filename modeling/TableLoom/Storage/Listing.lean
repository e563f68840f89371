import TableLoom.Digest.Sha256
import TableLoom.Storage.Tree
import TableLoom.Text.Hex
import TableLoom.Value.Basic

/-!
What a tree holds, as data.
-/

namespace TableLoom.Storage

def sourceSuffix : String := ".py"

/-- Bytes as data that any format can hold. -/
def bytesData (b : ByteArray) : Value :=
  .ofFields [("$hex", .text (Text.hexOfBytes b))]

/-- A file: source by its measures, other text as it is, and what is no text by its bytes. -/
def fileData (path : String) (b : ByteArray) : Value :=
  match Text.Utf8.decode? b with
  | none => bytesData b
  | some s =>
    if Text.endsWith path sourceSuffix then
      .ofFields [("size", .int b.size), ("sha256", .text (Digest.sha256 b.toList))]
    else .text s

/-- The files of a tree by their paths, and the directories that hold nothing; not those outside. -/
def Tree.data (t : Tree) : Value :=
  .ofFields ((t.nodes.filter fun (p, _) => !isGiven (p.take 1)).filterMap fun (p, n) =>
    let path := Text.join "/" p
    match n with
    | .directory => if (t.names p).isEmpty then some (path ++ "/", .null) else none
    | .file b => some (path, fileData path b))

end TableLoom.Storage
