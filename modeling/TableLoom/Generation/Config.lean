import TableLoom.Check.Scalar
import TableLoom.Text.Word

/-!
What controls the generation of source files.
-/

namespace TableLoom.Generation

open Check (Checked)

structure Config where
  outputDir : String := "./generated"
  runtimePackage : String := "fluentorm"
  indentSize : Nat := 4
  docstrings : Bool := true
  relations : Bool := true
  registry : Bool := true
  manifest : Bool := true
  clean : Bool := false

/-- Identifiers joined by points. -/
def isDottedPath (s : String) : Bool :=
  (Text.split '.' s).all Text.isScriptIdentifier

def readPackage (v : Value) : Checked String :=
  (Check.name v).andThen fun s =>
    if isDottedPath s then .fits s
    else .flaw (.refused ("runtime_package must be a dotted module path, got " ++ Text.quoted s))

/-- A width from two to eight. -/
def readIndent (v : Value) : Checked Nat :=
  (Check.int v).andThen fun n =>
    (Check.atLeast 2 n).andThen fun n => (Check.atMost 8 n).map Int.toNat

def Config.read : Value → Checked Config :=
  Check.record "GenerationConfig" fun entries =>
    let flag (name : String) (default : Bool) : Checked Bool :=
      Check.partOr entries name default Check.bool
    let base : Config := {}
    Config.mk <$> Check.partOr entries "output_dir" base.outputDir Check.text
      <*> Check.partOr entries "runtime_package" base.runtimePackage readPackage
      <*> Check.partOr entries "indent_size" base.indentSize readIndent
      <*> flag "generate_docstrings" true <*> flag "generate_relations" true
      <*> flag "generate_registry" true <*> flag "write_manifest" true
      <*> flag "clean_output" false
      <* Check.noOthers ["output_dir", "runtime_package", "indent_size", "generate_docstrings",
        "generate_relations", "generate_registry", "write_manifest", "clean_output"] entries

def Config.data (c : Config) : Value :=
  .ofFields [("output_dir", .text c.outputDir), ("runtime_package", .text c.runtimePackage),
    ("indent_size", .int c.indentSize), ("generate_docstrings", .bool c.docstrings),
    ("generate_relations", .bool c.relations), ("generate_registry", .bool c.registry),
    ("write_manifest", .bool c.manifest), ("clean_output", .bool c.clean)]

end TableLoom.Generation
