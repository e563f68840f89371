import TableLoom.Query.Builder
import TableLoom.Text.Word

/-!
The statement of a builder. Its sections stand in a fixed order: projection, joins, includes,
conditions, grouping, order and paging.
-/

namespace TableLoom.Query

/-- Which sections a statement has, and what replaces the projection and the limit. -/
structure Shape where
  projection : Option String := none
  grouping : Bool := true
  ordering : Bool := true
  paging : Bool := true
  limit : Option Int := none

/-- Whether `or` stands in a text as a word of its own, in any case. -/
def mentionsOrFrom (afterWord : Bool) : List Char → Bool
  | o :: r :: rest =>
    (!afterWord && (o == 'o' || o == 'O') && (r == 'r' || r == 'R')
        && !(rest.head?.any Text.isWord))
      || mentionsOrFrom (Text.isWord o) (r :: rest)
  | _ => false

def mentionsOr (s : String) : Bool :=
  mentionsOrFrom false s.toList

namespace Builder

/-- The condition that soft deletion puts in front, if any. -/
def guard? (b : Builder) : Option String :=
  let column := Naming.qualify b.binding.table "deleted_at"
  if !b.binding.softDelete then none
  else match b.clauses.deleted with
    | .hide => some (column ++ " IS NULL")
    | .only => some (column ++ " IS NOT NULL")
    | .show_ => none

/-- Conditions one after the other, each but the first behind its connective. -/
def connect : List (Link × List Piece) → List Piece
  | [] => []
  | (_, first) :: rest =>
    first ++ rest.flatMap fun (link, ps) => .text s!" {link.sql} " :: ps

/-- The conditions of the caller. Behind a guard they stand in parentheses when they mention an
alternative. -/
def guarded (guard : Option String) (user : List Piece) : Option (List Piece) :=
  match guard with
  | none => if isBlank user then none else some user
  | some g =>
    if isBlank user then some [.text g]
    else if mentionsOr (sqlFrom 1 user) then
      some (.text (g ++ " AND (") :: user ++ [.text ")"])
    else some (.text (g ++ " AND ") :: user)

/-- The conditions with the guard of soft deletion. -/
def conditions (write : Nat → Except Fault (List Piece)) (b : Builder) :
    Except Fault (Option (List Piece)) := do
  let user ← b.clauses.conditions.mapM fun c => return (c.link, ← expand write c.phrase)
  return guarded b.guard? (connect user)

/-- The projection with what it is taken from. -/
def head (write : Nat → Except Fault (List Piece)) (b : Builder) (shape : Shape) :
    Except Fault (List Piece) := do
  let c := b.clauses
  match shape.projection with
  | some p => return [.text s!"SELECT {p} FROM {b.binding.table}"]
  | none =>
    if c.selects.isEmpty && !c.distinct && c.joins.isEmpty && c.includes.isEmpty then
      return [.text b.binding.selectAll]
    else
      let selects ← c.selects.mapM (expand write)
      let own := if selects.isEmpty then [[Piece.text s!"{b.binding.table}.*"]] else selects
      let items := own ++ c.includes.map fun (r, _) => [.text r.item]
      let word := if c.distinct then "SELECT DISTINCT " else "SELECT "
      return .text word :: joined [.text ", "] items ++ [.text s!" FROM {b.binding.table}"]

/-- The joins that load relations; a replaced projection has none. -/
def includes (write : Nat → Except Fault (List Piece)) (b : Builder) (shape : Shape) :
    Except Fault (List (List Piece)) :=
  if shape.projection.isSome then .ok []
  else b.clauses.includes.mapM fun (r, options) =>
    expand write (r.lateral b.binding.table options)

/-- Texts behind the word of their section; anything else cannot be written. -/
def texts (word : String) (vs : List Value) : Except Fault (List (List Piece)) :=
  match vs.mapM Value.asText? with
  | none => .error .wrongKind
  | some [] => .ok []
  | some ss => .ok [[.text (word ++ Text.join ", " ss)]]

def grouping (write : Nat → Except Fault (List Piece)) (b : Builder) (shape : Shape) :
    Except Fault (List (List Piece)) := do
  if !shape.grouping then return []
  let groups ← texts "GROUP BY " b.clauses.groupBy
  if b.clauses.havings.isEmpty then return groups
  let havings ← b.clauses.havings.mapM (expand write)
  return groups ++ [.text "HAVING " :: joined [.text " AND "] havings]

def ordering (b : Builder) (shape : Shape) : Except Fault (List (List Piece)) :=
  if shape.ordering then texts "ORDER BY " b.clauses.orderBy else .ok []

def paging (b : Builder) (shape : Shape) : List (List Piece) :=
  let limit (n : Option Int) : List (List Piece) := n.toList.map fun n => [.text s!"LIMIT {n}"]
  if shape.paging then
    limit (shape.limit <|> b.clauses.limit)
      ++ b.clauses.offset.toList.map fun n => [.text s!"OFFSET {n}"]
  else limit shape.limit

/-- The sections of a statement, in order. -/
def sections (write : Nat → Except Fault (List Piece)) (b : Builder) (shape : Shape) :
    Except Fault (List (List Piece)) := do
  let head ← b.head write shape
  let includes ← b.includes write shape
  let conditions ← b.conditions write
  let grouping ← b.grouping write shape
  let ordering ← b.ordering shape
  let filter := conditions.toList.map (Piece.text "WHERE " :: ·)
  return head :: b.clauses.joins.map (fun j => [.text j]) ++ includes ++ filter ++ grouping
    ++ ordering ++ b.paging shape

/-- The statement of a builder, given how the queries that it embeds are written. -/
def pieces (write : Nat → Except Fault (List Piece)) (b : Builder) (shape : Shape) :
    Except Fault (List Piece) :=
  (b.sections write shape).map (joined [.text " "])

/-- The statement that deletes the rows. -/
def deletion (write : Nat → Except Fault (List Piece)) (b : Builder) :
    Except Fault (List Piece) := do
  let conditions ← b.conditions write
  return .text s!"DELETE FROM {b.binding.table}"
    :: match conditions with
      | none => []
      | some ps => .text " WHERE " :: ps

end Builder

end TableLoom.Query
