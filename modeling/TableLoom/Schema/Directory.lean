import TableLoom.Json.Reader
import TableLoom.Log
import TableLoom.Schema.Registry
import TableLoom.Storage.Tree
import TableLoom.Yaml.Reader

/-!
Fragments read from the files of one directory, in the order of their names. A file that cannot be
understood is an error of the table that it names, or of the input.
-/

namespace TableLoom.Schema

open Storage (DiskError Path Tree)

/-- Why a file or directory yields nothing at all. -/
inductive LoadError where
  | noDirectory (path : String)
  | refused (error : DiskError)
  /-- The bytes of a file are no text. -/
  | undecodable
  /-- The text of a file stands for something that there is not. -/
  | unreadable (fault : Yaml.Fault)
  | fragment (error : FragmentError)

def LoadError.message : LoadError → String
  | .noDirectory path => s!"Schemas directory not found: {path}"
  | .refused e => e.message
  | .undecodable => "Undecodable text"
  | .unreadable f => f.message
  | .fragment e => e.message

def fragmentSuffixes : List String := [".json", ".yaml", ".yml"]

def isYaml (p : Path) : Bool :=
  [".yaml", ".yml"].contains p.lowerSuffix

/-- What messages call the type of data. -/
def typeName : Value → String
  | .null => "NoneType"
  | .bool _ => "bool"
  | .int _ => "int"
  | .float _ => "float"
  | .text _ => "str"
  | .bytes _ => "bytes"
  | .moment m => if m.clock.isSome then "datetime" else "date"
  | .list _ => "list"
  | .set _ => "set"
  | .map _ => "dict"

/-- The map that some data is. -/
def asMap (format : String) : Value → Except String Value
  | .map es => .ok (.map es)
  | v => .error s!"Expected a {format} at top level, got {typeName v}."

/-- Why a text in JSON cannot be read, unless the text itself is wrong. -/
def limitOf? (e : Json.Located) : Option Yaml.Fault :=
  match e.fault with
  | .tooDeep => some .tooDeep
  | .tooLong _ => some (.impossible e.message)
  | _ => none

/-- The data in one of the two formats; a text that is not in the format is described. -/
def parseFile (yaml : Bool) (text : String) : Except Yaml.Fault (Except String Value) :=
  if yaml then
    match Yaml.read text with
    | .ok v => .ok (asMap "YAML mapping" v)
    | .error .malformed => .ok (.error s!"Invalid YAML: {Yaml.Fault.malformed.message}")
    | .error f => .error f
  else
    match Json.read text with
    | .ok v => .ok (asMap "JSON object" v)
    | .error e =>
      match limitOf? e with
      | some f => .error f
      | none => .ok (.error s!"Invalid JSON: {e.message}")

/-- The map that a file holds. -/
def loadFile (t : Tree) (p : Path) : Except LoadError Value := do
  let bytes ← (t.readBytes p).mapError LoadError.refused
  match Storage.textOf? bytes with
  | none => .error .undecodable
  | some text =>
    match parseFile (isYaml p) text with
    | .ok (.ok v) => .ok v
    | .ok (.error reason) => .error (.fragment { reason, source := some p.name })
    | .error f => .error (.unreadable f)

/-- The fragment files directly in a directory, by name; hidden ones do not count. -/
def discover (t : Tree) (p : Path) : Except LoadError (List String) :=
  match t.showsDirectory p with
  | .error e => .error (.refused e)
  | .ok false => .error (.noDirectory p.text)
  | .ok true =>
    .ok ((t.names p.place).filter fun name =>
      t.isFile (p.place ++ [name]) && name.toList.head? != some '.'
        && fragmentSuffixes.contains (Path.lowerSuffix ⟨false, [name]⟩))

/-- A fragment, or the error that stands in its place. -/
abbrev Arrival := Except FragmentError Fragment

/-- What a file contributes. Only text that cannot be decoded ends the reading of all. -/
def arrival (t : Tree) (directory : Path) (name : String) : Except LoadError Arrival :=
  match loadFile t (directory.child name) with
  | .ok data => .ok (parseFragment data (some name))
  | .error (.fragment e) => .ok (.error e)
  | .error e => .error e

namespace Registry

/-- Takes in a fragment or an error. -/
def receive (r : Registry) : Arrival → Registry
  | .ok f => r.register f
  | .error e => r.recordError e

def ofArrivals (arrivals : List Arrival) : Registry :=
  arrivals.foldl receive {}

/-- The note on what was taken in. -/
def arrivalNote : Arrival → Log.Entry
  | .ok f => Log.debug "registry" s!"Registered {f.describe}"
  | .error e => Log.warning "registry" s!"Malformed fragment: {e.message}"

def ofDirectory (t : Tree) (directory : Path) : Except LoadError Registry := do
  let names ← discover t directory
  let arrivals ← names.mapM (arrival t directory)
  return ofArrivals arrivals

/-- The notes on reading a directory, as far as it gets. -/
def directoryNotes (t : Tree) (directory : Path) : List Log.Entry :=
  match discover t directory with
  | .error _ => []
  | .ok names =>
    let arrivals := (names.map (arrival t directory)).takeWhile (·.isOk)
      |>.filterMap Except.toOption
    let registry := ofArrivals arrivals
    Log.debug "registry" s!"Discovered {names.length} fragment file(s) in {directory.text}"
      :: arrivals.map arrivalNote
      ++ if arrivals.length == names.length then
          [Log.info "registry" (s!"Loaded {registry.entries.length} table(s) from "
            ++ s!"{directory.text} ({registry.inputErrors.length} unreadable file(s)).")]
        else []

end Registry

end TableLoom.Schema
