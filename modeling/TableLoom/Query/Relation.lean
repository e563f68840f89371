import TableLoom.Naming
import TableLoom.Query.Piece

/-!
Relations that a query can load along: the related rows arrive as one JSON column named after the
relation.
-/

namespace TableLoom.Query

/-- The related rows are those of `table` whose `foreignColumn` equals the `localColumn`. -/
structure Relation where
  name : String
  table : String
  localColumn : String
  foreignColumn : String
  many : Bool

/-- How the related rows are narrowed: a raw condition with its values, an order and a limit. -/
structure IncludeOptions where
  filter : Option Phrase := none
  orderBy : Option String := none
  limit : Option Int := none

namespace Relation

def innerAlias (r : Relation) : String := r.name ++ "_rel"
def rowAlias (r : Relation) : String := r.name ++ "_row"
def joinAlias (r : Relation) : String := r.name ++ "_include"

/-- The item of the projection that holds the related rows. -/
def item (r : Relation) : String :=
  s!"{r.joinAlias}.data AS \"{r.name}\""

/-- The condition that ties the related rows to the row of the bound table. -/
def link (r : Relation) (table : String) : String :=
  s!"{r.innerAlias}.{r.foreignColumn} = " ++ Naming.qualify table r.localColumn

/-- A relation to one row takes one row, whatever limit is asked for. -/
def effectiveLimit (r : Relation) (options : IncludeOptions) : Option Int :=
  if r.many then options.limit else some 1

def rows (r : Relation) (table : String) (options : IncludeOptions) : Phrase :=
  let filter := match options.filter with
    | none => []
    | some phrase => .text " AND (" :: phrase ++ [.text ")"]
  let order := match options.orderBy with
    | none => ""
    | some sql => " ORDER BY " ++ sql
  let limit := match r.effectiveLimit options with
    | none => ""
    | some n => s!" LIMIT {n}"
  .text (s!"SELECT {r.innerAlias}.* FROM {r.table} AS {r.innerAlias} WHERE " ++ r.link table)
    :: filter ++ [.text (order ++ limit)]

def gathered (r : Relation) : String :=
  if r.many then s!"SELECT COALESCE(jsonb_agg(to_jsonb({r.rowAlias})), '[]'::jsonb) AS data"
  else s!"SELECT to_jsonb({r.rowAlias}) AS data"

/-- The join that loads the relation. -/
def lateral (r : Relation) (table : String) (options : IncludeOptions) : Phrase :=
  .text (s!"LEFT JOIN LATERAL ({r.gathered} FROM (") :: r.rows table options
    ++ [.text s!") AS {r.rowAlias}) AS {r.joinAlias} ON TRUE"]

end Relation

end TableLoom.Query
