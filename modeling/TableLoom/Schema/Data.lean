import TableLoom.Schema.Examination
import TableLoom.Schema.Finding
import TableLoom.Schema.Registry

/-!
Schemas as data: what is written down of them together with all that follows from it.
-/

namespace TableLoom

namespace Code.Imports

/-- The names needed from each module, in order. -/
def data (m : Imports) : Value :=
  .ofFields (m.map fun (module, names) => (module, .texts (sorted names)))

end Code.Imports

namespace Schema

open Value (ofFields ofText? texts)

def dataList {α : Type} (data : α → Value) (items : List α) : Value :=
  .list (items.map data)

def Field.data (f : Field) : Value :=
  ofFields [("name", .text f.name), ("type", .text f.type.name), ("nullable", .bool f.nullable),
    ("primary_key", .bool f.primaryKey), ("unique", .bool f.unique),
    ("default", ofText? f.default), ("input_mode", .text f.inputMode.name),
    ("redacted", .bool f.redacted), ("base_type", .text f.type.base.name),
    ("python_type", .text f.type.base.memberType),
    ("python_annotation", .text f.memberType),
    ("is_input", .bool f.isInput), ("repr", .text f.describe)]

def Index.data (i : Index) : Value :=
  ofFields [("name", .text i.name), ("columns", texts i.columns), ("unique", .bool i.unique)]

def Reference.data (r : Reference) : Value :=
  ofFields [("table", .text r.table), ("column", .text r.column)]

def Relationship.data (owner : String) (r : Relationship) : Value :=
  ofFields [("name", ofText? r.name), ("column", .text r.column),
    ("references", r.references.data), ("type", .text r.cardinality.name),
    ("on_delete", .text r.onDelete.name), ("on_update", .text r.onUpdate.name),
    ("field_name", .text r.member), ("wrapper_name", .text r.member),
    ("is_reverse", .bool r.isReverse), ("is_many", .bool r.isMany),
    ("references_table", .text r.references.table),
    ("foreign_column", .text (r.foreignColumn owner)), ("repr", .text r.describe)]

def Fragment.data (f : Fragment) : Value :=
  ofFields [("table_name", .text f.table), ("struct_name", ofText? f.structName),
    ("source", ofText? f.source), ("fields", dataList Field.data f.fields),
    ("alters", dataList Field.data f.alters), ("indexes", dataList Index.data f.indexes),
    ("relationships", dataList (Relationship.data f.table) f.relationships),
    ("repr", .text f.describe)]

def Table.data (t : Table) : Value :=
  ofFields [("name", .text t.name), ("struct_name", ofText? t.structName),
    ("fields", dataList Field.data t.fields), ("alters", texts (t.alters.map (·.name))),
    ("indexes", dataList Index.data t.indexes),
    ("relationships", dataList (Relationship.data t.name) t.relationships),
    ("record_name", .text t.recordName), ("field_names", texts t.fieldNames),
    ("primary_key", ofText? t.primaryKey), ("has_soft_delete", .bool t.hasSoftDelete),
    ("input_fields", texts (t.inputFields.map (·.name))),
    ("unique_input_fields", texts (t.uniqueInputFields.map (·.name))),
    ("select_all_sql", .text t.selectAllSql), ("python_imports", t.imports.data),
    ("repr", .text t.describe)]

def Finding.data (f : Finding) : Value :=
  ofFields [("level", .text f.severity.name), ("code", .text f.code),
    ("message", .text f.message), ("context", ofFields f.context)]

def Findings.data (fs : Findings) : Value :=
  ofFields [("items", dataList Finding.data fs), ("codes", texts fs.codes),
    ("is_valid", .bool fs.isValid), ("len", .int (List.length fs)), ("truthy", .bool fs.isValid),
    ("report", .text fs.report), ("repr", .text s!"<ValidationResult {fs.summary}>"),
    ("errors", texts (fs.errors.map (·.line))), ("warnings", texts (fs.warnings.map (·.line)))]

/-- The tables of an examination that can be merged, and what was found. -/
def Examination.data (e : Examination) : Value :=
  ofFields [("accepted", texts e.accepted), ("rejected", texts e.rejected),
    ("is_valid", .bool e.isValid),
    ("merged", texts ((e.subjects.filter (·.table?.isSome)).map (·.name))),
    ("results", dataList (fun s => .list [.text s.name, s.findings.data]) e.subjects)]

end Schema

end TableLoom
