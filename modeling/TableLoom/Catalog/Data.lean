import TableLoom.Catalog.Pull

/-!
What was pulled, as data.
-/

namespace TableLoom.Catalog

open Value (ofText? texts)

def Column.data (c : Column) : Value :=
  .list [.text c.name, .text c.dataType, .text c.udt, .bool c.nullable, ofText? c.default,
    .bool c.identity, .text c.fieldType.name, .bool c.isAutoGenerated]

def ForeignKey.data (k : ForeignKey) : Value :=
  .list [.text k.name, texts k.columns, .text k.table, texts k.foreignColumns,
    .text k.onDelete.name, .text k.onUpdate.name, .bool k.isComposite]

def TableIndex.data (i : TableIndex) : Value :=
  .list [.text i.name, texts i.columns, .bool i.unique, .bool i.primary]

def Shape.data (s : Shape) : Value :=
  .ofFields [("name", .text s.name), ("primary_key", texts s.primaryKey),
    ("unique_columns", texts (s.uniqueColumns.eraseDups.mergeSort (· ≤ ·))),
    ("unique_constraints", .list (s.uniqueConstraints.map fun (n, cs) => .list [.text n, texts cs])),
    ("columns", .list (s.columns.map Column.data)),
    ("foreign_keys", .list (s.foreignKeys.map ForeignKey.data)),
    ("indexes", .list (s.indexes.map TableIndex.data))]

def Report.data (r : Report) : Value :=
  let file (f : Schema.Fragment) : Value := .list [.text f.table, ofText? f.source,
    .text (fragmentText f)]
  .ofFields [("schema", .text r.request.schema), ("output_directory", .text r.outputText),
    ("dry_run", .bool r.request.dryRun), ("table_names", texts (r.tables.map (·.name))),
    ("written", texts r.written), ("warnings", texts r.warnings), ("summary", .text r.summary),
    ("tables", .list (r.tables.map Shape.data)), ("yaml", .list (r.fragments.map file))]

end TableLoom.Catalog
