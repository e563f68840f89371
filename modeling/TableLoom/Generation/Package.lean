import TableLoom.Generation.Operations
import TableLoom.Generation.SourceFile

/-!
The package of all tables: a module each, a registry of them, and the file that makes it a package.
-/

namespace TableLoom.Generation

open Code (Assignment Function Item Literal Line Module Style)
open Schema (Table Field Relationship)

def Config.style (c : Config) : Style :=
  { indent := c.indentSize, documented := c.docstrings }

/-- The relationships that records with loaded relations are emitted for. -/
def Config.variants (c : Config) (t : Table) : List Relationship :=
  if c.relations then t.relationships else []

/-- Modules of the base installation that annotations may need. -/
def isBaseModule (name : String) : Bool :=
  ["datetime", "typing", "uuid"].contains name

/-- Everything that the module of a table imports from outside the package. -/
def tableImports (c : Config) (t : Table) : Code.Imports :=
  let variants := c.variants t
  let inputs := !t.inputFields.isEmpty
  let whenever (b : Bool) (names : List String) : List String := if b then names else []
  let crud := s!"{c.runtimePackage}.crud"
  let hydration := s!"{c.runtimePackage}.hydration"
  let own : Code.Imports :=
    [("typing", ["Any", "ClassVar", "Dict", "List", "Optional"] ++ whenever inputs ["Sequence"]),
      ("pydantic", ["BaseModel", "ConfigDict"] ++ whenever (t.fields.any (·.redacted)) ["Field"]),
      (crud, ["require_row"] ++ whenever inputs (["build_insert_many"]
        ++ whenever t.keyField?.isSome ["build_update"])),
      (hydration, ["base_values"] ++ variants.map TableModule.decoder),
      (s!"{c.runtimePackage}.query", ["QueryBuilder", "Relation"])]
  Code.Imports.mergeAll [own, t.imports]

/-- The imports in three groups: the base installation, the validation library, the query runtime. -/
def importBlocks (c : Config) (imports : Code.Imports) : List String :=
  let runtime := (c.runtimePackage ++ ".").toList
  [imports.filter fun m => isBaseModule m.1, imports.filter (·.1 == "pydantic"),
    imports.filter fun m => m.1 != "pydantic" && runtime.isPrefixOf m.1.toList].map
    Code.Imports.block

/-- The other tables that relationships lead to, each once and in order. -/
def relatedTables (t : Table) (variants : List Relationship) : List String :=
  Code.Imports.sorted
    (((variants.map (·.references.table)).filter (· != t.name)).eraseDups)

/-- The module of a table whose relationships have found their targets. -/
def linkedModule (c : Config) (t : Table) (variants : List Resolved) : Module :=
  { title := s!"Data access for table: {t.name}"
    imports := importBlocks c (tableImports c t)
    items := .constants (TableModule.constants t)
      :: ((TableModule.classes t variants).map Item.record
        ++ (TableModule.functions t).map Item.function)
    siblings := (relatedTables t (variants.map (·.relationship))).map fun name =>
      ⟨name, Code.moduleAlias name⟩ }

/-- The module of a table among all tables of the package. -/
def tableModule (c : Config) (t : Table) (tables : List Table) : Except UnknownTable Module :=
  (resolve tables (c.variants t)).map (linkedModule c t)

/-- The line that imports the modules of all tables. -/
def importTables (tables : List Table) : String :=
  "from . import " ++ Text.join ", " (Code.Imports.sorted (tables.map (·.name)))

/-- A constant with one line for each table. -/
def tableOf (name type opening closing : String) (items : List String) : Item :=
  .table ⟨name, some type, .listing opening closing items⟩

/-- The names of all records with relations loaded. -/
def variantNames (t : Table) : List String :=
  t.relationships.map t.variantName ++ [t.allRelationsName]

def variantEntry (t : Table) : String :=
  Text.sourceQuoted t.name ++ ": ["
    ++ Text.join ", " ((variantNames t).map fun n => s!"{t.name}.{n}") ++ "]"

/-- What the registry lists: the tables in the order in which they were first named, their records and
query classes, and the records with relations loaded. -/
def registryListings (c : Config) (tables : List Table) : List Item :=
  let key (t : Table) := Text.sourceQuoted t.name
  let related := if c.relations then tables.filter (!·.relationships.isEmpty) else []
  [tableOf "TABLES" "List[str]" "[" "]" (tables.map key),
    tableOf "MODELS" "Dict[str, Type[BaseModel]]" "\x7b" "\x7d"
      (tables.map fun t => key t ++ s!": {t.name}.{t.recordName}"),
    tableOf "QUERIES" "Dict[str, Type[QueryBuilder]]" "\x7b" "\x7d"
      (tables.map fun t => key t ++ s!": {t.name}.{t.recordName}Query"),
    tableOf "VARIANTS" "Dict[str, List[Type[BaseModel]]]" "\x7b" "\x7d" (related.map variantEntry)]

def getModel : Function :=
  { name := "get_model", result := "Type[BaseModel]"
    signature := { positional := [⟨"table_name", "str", none⟩] }
    doc := some "Record class of a generated table."
    body := [{ text := "try:" }, { depth := 1, text := "return MODELS[table_name]" },
      { text := "except KeyError:" },
      { depth := 1
        text := "raise KeyError(f\"Unknown table: \x7btable_name!r\x7d\") from None" }] }

def rebuildModels : Function :=
  { name := "rebuild_models", result := "None", signature := {}
    doc := some "Resolve the cross-module references of every relation variant."
    body := [{ text := "for variants in VARIANTS.values():" },
      { depth := 1, text := "for variant in variants:" },
      { depth := 2, text := "variant.model_rebuild()" }] }

/-- The module that lists all tables. -/
def registryModule (c : Config) (tables : List Table) : Module :=
  { title := "Registry of generated tables."
    imports := ["from typing import Dict, List, Type", "from pydantic import BaseModel",
        s!"from {c.runtimePackage}.query import QueryBuilder"]
      ++ if tables.isEmpty then [] else [importTables tables]
    items := registryListings c tables ++ [.function getModel, .function rebuildModels] }

/-- The file that makes the directory a package: it gives out the registry, or the modules. -/
def packageText (c : Config) (tables : List Table) : String :=
  let lines :=
    if c.registry then
      ["from .registry import MODELS, QUERIES, TABLES, get_model, rebuild_models", "",
        "rebuild_models()", "",
        "__all__ = [\"MODELS\", \"QUERIES\", \"TABLES\", \"get_model\", \"rebuild_models\"]"]
    else if tables.isEmpty then []
    else [importTables tables ++ "  # noqa: F401"]
  Code.endLine (Text.join "\n" (Code.titleLines "Generated data-access package." ++ lines))

def tableText (c : Config) (t : Table) (tables : List Table) : Except UnknownTable String :=
  (tableModule c t tables).map (Module.text c.style)

def registryText (c : Config) (tables : List Table) : String :=
  (registryModule c tables).text c.style

def registryPath : String := "registry.py"
def packagePath : String := "__init__.py"
def tablePath (name : String) : String := name ++ ".py"

/-- Every file of the package with its text: the tables' modules, then the registry, then the package
file. A later text of one path takes the place of an earlier one. -/
def packageFiles (c : Config) (tables : List Table) : Except UnknownTable (List (String × String)) := do
  let modules ← tables.mapM fun t => do return (tablePath t.name, ← tableText c t tables)
  let registry := if c.registry then [(registryPath, registryText c tables)] else []
  let all := modules ++ registry ++ [(packagePath, packageText c tables)]
  return all.foldl (fun acc (path, text) => putEntry path text acc) []

end TableLoom.Generation
