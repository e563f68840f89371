import TableLoom.Storage.Path
import TableLoom.Text.Quoted
import TableLoom.Text.Surrogate
import TableLoom.Text.Utf8

/-!
A tree of files and directories, and what goes wrong when something is not where it is looked for.
-/

namespace TableLoom.Storage

/-- Something on a disk. -/
inductive Node where
  | directory
  | file (content : ByteArray)

def longestName : Nat := 255

def longestPath : Nat := 4095

/-- What goes wrong with a disk. -/
inductive Trouble where
  | exists_
  | missing
  | isDirectory
  | notDirectory
  /-- A file is moved to a place that stands for a directory on the way to it. -/
  | busy
  | tooLong
  /-- The path has a character that no path can have. -/
  | nullCharacter
  /-- The text has no bytes. -/
  | unwritable (flaw : Text.LoneHalves)
  /-- Any other trouble, with its number and words. -/
  | other (number : Nat) (words : String)
  deriving DecidableEq

namespace Trouble

/-- Whether the disk refuses. It is not even asked when a path or text makes no sense to it. -/
def isRefusal : Trouble → Bool
  | nullCharacter | unwritable _ => false
  | _ => true

def number : Trouble → Nat
  | exists_ => 17
  | missing => 2
  | isDirectory => 21
  | notDirectory => 20
  | busy => 16
  | tooLong => 36
  | nullCharacter | unwritable _ => 0
  | other n _ => n

def words : Trouble → String
  | exists_ => "File exists"
  | missing => "No such file or directory"
  | isDirectory => "Is a directory"
  | notDirectory => "Not a directory"
  | busy => "Device or resource busy"
  | tooLong => "File name too long"
  | nullCharacter => "embedded null byte"
  | unwritable flaw => flaw.message
  | other _ w => w

/-- The kind of trouble in one word. -/
def name : Trouble → String
  | exists_ => "FileExistsError"
  | missing => "FileNotFoundError"
  | isDirectory => "IsADirectoryError"
  | notDirectory => "NotADirectoryError"
  | busy | tooLong | other .. => "OSError"
  | nullCharacter => "ValueError"
  | unwritable _ => "UnicodeEncodeError"

end Trouble

/-- Trouble, with the path that it is about, and the path that something should have moved to. -/
structure DiskError where
  trouble : Trouble
  path : String
  target : Option String := none
  deriving DecidableEq

namespace DiskError

def name (e : DiskError) : String := e.trouble.name

def message (e : DiskError) : String :=
  if e.trouble.isRefusal then
    let head := s!"[Errno {e.trouble.number}] {e.trouble.words}: " ++ Text.quoted e.path
    match e.target with
    | some t => head ++ " -> " ++ Text.quoted t
    | none => head
  else e.trouble.words

end DiskError

/-- Files and directories by their places. -/
structure Tree where
  nodes : List (Place × Node) := []

namespace Tree

def find? (t : Tree) (p : Place) : Option Node :=
  if isGiven p then some .directory else t.nodes.lookup p

def isDirectory (t : Tree) (p : Place) : Bool :=
  match t.find? p with
  | some .directory => true
  | _ => false

def isFile (t : Tree) (p : Place) : Bool :=
  match t.find? p with
  | some (.file _) => true
  | _ => false

def content? (t : Tree) (p : Place) : Option ByteArray :=
  match t.find? p with
  | some (.file b) => some b
  | _ => none

/-- Takes a node away. -/
def erase (t : Tree) (p : Place) : Tree :=
  { nodes := t.nodes.filter (·.1 != p) }

/-- Takes a node away and all below it. -/
def eraseAll (t : Tree) (p : Place) : Tree :=
  { nodes := t.nodes.filter fun (q, _) => !p.isPrefixOf q }

/-- Puts a node at a place, instead of what is there. -/
def put (t : Tree) (p : Place) (n : Node) : Tree :=
  { nodes := (t.erase p).nodes ++ [(p, n)] }

/-- The names in a directory, in order. -/
def names (t : Tree) (p : Place) : List String :=
  let inside := t.nodes.filterMap fun (q, _) =>
    if q.dropLast == p && !q.isEmpty then q.getLast? else none
  inside.mergeSort (· ≤ ·)

/-- Takes the steps of a path. Each one starts in a directory; what the last one names need not be
there. -/
def walk (t : Tree) (here : Place) : List String → Except Trouble Place
  | [] => .ok here
  | step :: rest =>
    match t.find? here with
    | none => .error .missing
    | some (.file _) => .error .notDirectory
    | some .directory =>
      if longestName < step.utf8ByteSize then .error .tooLong
      else t.walk (Path.follow here step) rest

def resolve (t : Tree) (p : Path) : Except Trouble Place :=
  if p.text.toList.contains '\x00' then .error .nullCharacter
  else if longestPath < p.text.utf8ByteSize then .error .tooLong
  else t.walk p.start p.parts

/-- What a path shows. Only a path that is too long is refused. -/
def look (t : Tree) (p : Path) : Except DiskError (Option Node) :=
  match t.resolve p with
  | .ok place => .ok (t.find? place)
  | .error .tooLong => .error ⟨.tooLong, p.text, none⟩
  | .error _ => .ok none

def showsFile (t : Tree) (p : Path) : Except DiskError Bool :=
  (t.look p).map fun
    | some (.file _) => true
    | _ => false

def showsDirectory (t : Tree) (p : Path) : Except DiskError Bool :=
  (t.look p).map fun
    | some .directory => true
    | _ => false

def readBytes (t : Tree) (p : Path) : Except DiskError ByteArray :=
  match (t.resolve p).map t.find? with
  | .ok (some (.file b)) => .ok b
  | .ok (some .directory) => .error ⟨.isDirectory, p.text, none⟩
  | .ok none => .error ⟨.missing, p.text, none⟩
  | .error trouble => .error ⟨trouble, p.text, none⟩

end Tree

/-- The text with every line end written as a line feed. -/
def unifyLineEnds : List Char → List Char
  | '\r' :: '\n' :: rest => '\n' :: unifyLineEnds rest
  | '\r' :: rest => '\n' :: unifyLineEnds rest
  | c :: rest => c :: unifyLineEnds rest
  | [] => []

/-- The text that bytes hold, if they hold one. -/
def textOf? (b : ByteArray) : Option String :=
  (Text.Utf8.decode? b).map fun s => String.ofList (unifyLineEnds s.toList)

end TableLoom.Storage
