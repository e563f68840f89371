import TableLoom.Code.Expression
import TableLoom.Schema.Basic

/-!
What the classes of a table's module are called, and how it refers to the records of other tables.
-/

namespace TableLoom.Schema.Table

/-- The record with one relation loaded, named after what the relation leads to. -/
def variantName (t : Table) (r : Relationship) : String :=
  let association :=
    if r.isMany && !r.isReverse then Naming.pascal r.member
    else Naming.association r.column r.references.table r.isMany
  s!"{t.recordName}With{association}"

/-- The record with every relation loaded. -/
def allRelationsName (t : Table) : String :=
  s!"{t.recordName}WithAllRelations"

/-- How the module of a table names the record of a target: by itself when it is its own, else through
the module that defines it, so that no class of this module can stand in its way. -/
def recordReference (t : Table) (target : Table) : String :=
  if target.name == t.name then target.recordName
  else s!"{Code.moduleAlias target.name}.{target.recordName}"

end TableLoom.Schema.Table
