import TableLoom.CommandLine.Session

/-!
The program: it looks at the files that a command line names, runs the command, and writes what the
command has changed.
-/

namespace TableLoom.Main

open CommandLine Storage

/-- Takes what the disk has at a path into a tree. -/
def look (t : Tree) (p : Path) : IO Tree := do
  let there := (← IO.currentDir) / p.text
  if ← there.isDir then return t.put p.place .directory
  else if ← there.pathExists then return t.put p.place (.file (← IO.FS.readBinFile there))
  else return t

/-- Takes a path, all on the way to it, and all directly below it into a tree. -/
def lookAround (t : Tree) (p : Path) : IO Tree := do
  let onTheWay := (List.range (p.parts.length + 1)).map fun n => { p with parts := p.parts.take n }
  let t ← onTheWay.foldlM look t
  let there := (← IO.currentDir) / p.text
  if ← there.isDir then
    (← there.readDir).toList.foldlM (fun t e => look t (p.child e.fileName)) t
  else return t

def pathOf : Place → String
  | "/" :: rest => "/" ++ Text.join "/" rest
  | names => Text.join "/" names

/-- Makes the disk hold what a tree holds, where another tree says what it holds so far. -/
def settle (before after : Tree) : IO Unit := do
  for (place, node) in after.nodes do
    match node with
    | .directory => if !before.isDirectory place then IO.FS.createDirAll (pathOf place)
    | .file b =>
      if before.content? place != some b then IO.FS.writeBinFile (pathOf place) b
  for (place, _) in before.nodes do
    if before.isFile place && (after.find? place).isNone then IO.FS.removeFile (pathOf place)

/-- What the disk holds of all that a command line is about. -/
def survey (argv : List String) : IO Tree := do
  let named := match Wish.read argv with
    | .run c => c.paths
    | _ => []
  let t ← named.foldlM lookAround {}
  match settingsOf t argv with
  | .ok c => lookAround t (.ofText c.outputDir)
  | .error _ => return t

end TableLoom.Main

/-- Runs the program. -/
def main (argv : List String) : IO UInt32 := do
  let tree ← TableLoom.Main.survey argv
  let url ← IO.getEnv "DATABASE_URL"
  let connect (_ : String) : Except TableLoom.CommandLine.Unreachable TableLoom.Catalog.Source :=
    .error (.refused "no driver for databases is linked in")
  match TableLoom.CommandLine.run { tree, url, connect } argv with
  | .ok e =>
    TableLoom.Main.settle tree e.tree
    IO.print e.console.out
    IO.eprint e.console.err
    return e.code.toUInt32
  | .error c =>
    IO.eprintln c.message
    return 1
