import TableLoom.Log
import TableLoom.Storage.Tree

/-!
A disk that is worked on step by step. Any step may be refused: by what the tree holds, or by a fault
that strikes the disk at that step. A file is written beside its place and moved there when it is
complete, so that a refusal leaves the file as it was.
-/

namespace TableLoom.Storage

/-- A tree, the faults that await the coming steps, and the notes on the work. A step for which no
fault is listed is spared. -/
structure Disk where
  tree : Tree := {}
  faults : List (Option Trouble) := []
  log : List Log.Entry := []

abbrev Work (α : Type) := ExceptT DiskError (StateM Disk) α

/-- The name that messages give to files that are not yet in place. -/
def temporaryName : String := "<TMP>"

namespace Disk

/-- Notes something. -/
def note (e : Log.Entry) : Work Unit :=
  modify fun d => { d with log := d.log ++ [e] }

/-- Meets the fault that awaits this step, if there is one. -/
def meet (path : String) : Work Unit := do
  let d ← get
  match d.faults with
  | [] => return
  | fault :: rest =>
    set { d with faults := rest }
    match fault with
    | none => return
    | some trouble => throw ⟨trouble, path, none⟩

def change (f : Tree → Tree) : Work Unit :=
  modify fun d => { d with tree := f d.tree }

/-- Asks the tree something. -/
def ask {α : Type} (question : Tree → Except DiskError α) : Work α := do
  match question (← get).tree with
  | .ok a => return a
  | .error e => throw e

/-- The place that a path leads to. The trouble on the way is told of the named path. -/
def resolve (p : Path) (named : String) : Work Place :=
  ask fun t => (t.resolve p).mapError fun trouble => ⟨trouble, named, none⟩

/-- Makes one directory, whose parent has to be there. -/
def makeDirectory (p : Path) : Work Unit := do
  meet p.text
  let place ← resolve p p.text
  match (← get).tree.find? place with
  | some _ => throw ⟨.exists_, p.text, none⟩
  | none => change fun t => t.put place .directory

/-- Lets a refusal pass where the directory is there anyway. -/
def orPresent (p : Path) (work : Work Unit) : Work Unit := do
  try work catch e =>
    if e.trouble.isRefusal && (← ask (·.showsDirectory p)) then return else throw e

/-- Makes a directory and those on the way to it, the innermost first as long as it is refused for want
of a parent. The names are given from the last to the first. -/
def makeDirectories (absolute : Bool) : List String → Work Unit
  | [] => orPresent ⟨absolute, []⟩ (makeDirectory ⟨absolute, []⟩)
  | name :: before => do
    let p : Path := ⟨absolute, (name :: before).reverse⟩
    try makeDirectory p catch e =>
      if e.trouble == .missing then
        makeDirectories absolute before
        orPresent p (makeDirectory p)
      else orPresent p (throw e)

/-- Sees to it that a directory is there. -/
def ensureDirectory (p : Path) : Work Unit := do
  makeDirectories p.absolute p.parts.reverse
  note (Log.debug "utils" s!"Ensured directory exists: {p.text}")

/-- A name that nothing in the tree has: it is longer than any. -/
def freshName (t : Tree) (name : String) : String :=
  let longest := t.nodes.foldl (fun n (q, _) => max n (q.getLast?.getD "").length) 0
  s!".{name}." ++ Text.repeated (longest + 1) 'x' ++ ".tmp"

/-- Whether a path names nothing in the directory that it leads to, but that directory or its parent. -/
def namesNothing (p : Path) : Bool :=
  p.parts.isEmpty || p.name == ".."

/-- Moves a finished file to its place. -/
def moveInto (temporary : Place) (content : ByteArray) (p : Path) : Work Unit := do
  meet p.text
  let trouble (trouble : Trouble) : DiskError := ⟨trouble, temporaryName, some p.text⟩
  match (← get).tree.resolve p with
  | .error t => throw (trouble t)
  | .ok place =>
    if namesNothing p then throw (trouble .busy)
    else if (← get).tree.isDirectory place then throw (trouble .isDirectory)
    else change fun t => (t.erase temporary).put place (.file content)

/-- How much longer the name of a file is while it is not in place, in bytes. -/
def temporaryExcess : Nat := 14

/-- The place for a file that is not yet in place. -/
def temporaryPlace (p : Path) : Work Place := do
  meet temporaryName
  let directory ← resolve p.parent temporaryName
  if p.name.toList.contains '\x00' then throw ⟨.nullCharacter, temporaryName, none⟩
  if longestName < p.name.utf8ByteSize + temporaryExcess then
    throw ⟨.tooLong, temporaryName, none⟩
  return directory ++ [freshName (← get).tree p.name]

/-- Writes a file in whole or not at all, and gives the number of bytes. -/
def writeFile (p : Path) (text : String) : Work Nat := do
  ensureDirectory p.parent
  match Text.loneHalves? text with
  | some flaw => throw ⟨.unwritable flaw, p.text, none⟩
  | none => pure ()
  let content := text.toUTF8
  let temporary ← temporaryPlace p
  change fun t => t.put temporary (.file ByteArray.empty)
  try
    meet temporaryName
    change fun t => t.put temporary (.file content)
    meet temporaryName
    moveInto temporary content p
  catch e =>
    change fun t => t.erase temporary
    throw e
  note (Log.debug "utils" s!"Wrote {content.size} bytes to {p.text}")
  return content.size

/-- Puts content into a file, which may be there already. -/
def putFile (p : Path) (content : ByteArray) : Work Unit := do
  meet p.text
  let place ← resolve p p.text
  if (← get).tree.isDirectory place then throw ⟨.isDirectory, p.text, none⟩
  else change fun t => t.put place (.file content)

def removeFile (p : Path) : Work Unit := do
  meet p.text
  let place ← resolve p p.text
  match (← get).tree.find? place with
  | some (.file _) => change fun t => t.erase place
  | some .directory => throw ⟨.isDirectory, p.text, none⟩
  | none => throw ⟨.missing, p.text, none⟩

/-- Removes a file, or a directory with all below it. -/
def removeAll (p : Path) : Work Unit := do
  if ← ask (·.showsDirectory p) then change fun t => t.eraseAll p.place
  else removeFile p

/-- The text of a file that is there and holds one. -/
def textThere? (p : Path) : Work (Option String) := do
  match ← ask (·.look p) with
  | some (.file b) => return textOf? b
  | _ => return none

end Disk

end TableLoom.Storage
