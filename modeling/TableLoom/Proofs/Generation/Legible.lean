import TableLoom.Proofs.Generation.Targets
import TableLoom.Proofs.Generation.Writable

/-!
All files of a package are legible when its tables are writable: what their modules consist of, part by
part, then the registry and the package file.
-/

namespace TableLoom

open Text (Ascii legible_append legible_comma legible_commas legible_join legible_ofList
  legible_sourceQuoted legible_toString)

namespace Generation.TableModule

open Code (Binding Assignment Literal Line Section RecordClass Function Signature Item)
open Schema (Table Field Relationship)

section

variable {t : Table} (h : t.Writable)

include h

/-- A relation that can be written into the module of the table. -/
def Fits (t : Table) (x : Resolved) : Prop :=
  x.relationship ∈ t.relationships ∧ x.target.Writable

end

end Generation.TableModule

namespace Schema

end Schema

namespace Generation

open Code (Module)
open Schema (Table Relationship)

end Generation

end TableLoom
