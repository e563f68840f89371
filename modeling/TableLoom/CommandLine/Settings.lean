import TableLoom.CommandLine.Command
import TableLoom.Generation.Config
import TableLoom.Schema.Directory

/-!
The settings of a package: what a file says, and above it what the command line says.
-/

namespace TableLoom.CommandLine

open Generation (Config)
open Storage (Path Tree)

/-- Why there are no settings. -/
inductive SettingsError where
  | noFile (path : String)
  | undecodable (flaw : Text.Utf8.Flaw)
  | malformed (path : String)
  | notMap (path type : String)
  /-- The file stands for something that there is not. -/
  | unreadable (fault : Yaml.Fault)
  | flawed (issues : List Check.Issue)
  /-- The disk does not say whether there is a file. -/
  | refused (error : Storage.DiskError)

def SettingsError.message : SettingsError → String
  | .noFile path => s!"Config file not found: {path}"
  | .undecodable flaw => flaw.message
  | .malformed path => s!"Invalid config file {path}: {Yaml.Fault.malformed.message}"
  | .notMap path type => s!"Expected a mapping at top level of {path}, got {type}."
  | .unreadable f => f.message
  | .flawed _ => "Config validation failed"
  | .refused e => e.message

/-- The entries that the command line sets. -/
def Overrides.entries (o : Overrides) : List (String × Value) :=
  let flag (key : String) (isSet value : Bool) := if isSet then [(key, Value.bool value)] else []
  let text (key : String) (s : Option String) := s.toList.map fun s => (key, Value.text s)
  text "output_dir" o.output ++ text "runtime_package" o.runtimePackage
    ++ (o.indentSize.toList.map fun n => ("indent_size", .int n))
    ++ flag "generate_docstrings" (!o.docstrings) false
    ++ flag "generate_relations" (!o.relations) false
    ++ flag "generate_registry" (!o.registry) false ++ flag "write_manifest" (!o.manifest) false
    ++ flag "clean_output" o.clean true

def fileEntries (t : Tree) (p : Path) : Except SettingsError (List (Value × Value)) :=
  match t.look p with
  | .error e => .error (.refused e)
  | .ok none | .ok (some .directory) => .error (.noFile p.text)
  | .ok (some (.file bytes)) =>
    match Storage.textOf? bytes with
    | none => .error (.undecodable (Text.Utf8.flaw bytes))
    | some text =>
      match Yaml.read text with
      | .ok .null => .ok []
      | .ok (.map es) => .ok es
      | .ok v => .error (.notMap p.text (Schema.typeName v))
      | .error .malformed => .error (.malformed p.text)
      | .error f => .error (.unreadable f)

def settings (t : Tree) (file : Option String) (o : Overrides) : Except SettingsError Config := do
  let entries ← match file with
    | some f => fileEntries t (.ofText f)
    | none => .ok []
  match Config.read (.map (o.entries.foldl (fun es (k, v) => Value.put k v es) entries)) with
  | .fits c => .ok c
  | .flawed issues => .error (.flawed issues)

end TableLoom.CommandLine
