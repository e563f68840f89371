import TableLoom.Query.Clause
import TableLoom.Query.Render

/-!
Builders that embed each other. A query is embedded by its number on the shelf, so what it writes is
always what it holds at that moment.
-/

namespace TableLoom.Query

/-- Builders by number. -/
structure Shelf where
  builders : List Builder := []

namespace Shelf

def get? (s : Shelf) (id : Nat) : Option Builder :=
  s.builders[id]?

def set (s : Shelf) (id : Nat) (b : Builder) : Shelf :=
  ⟨s.builders.set id b⟩

/-- Puts a builder on the shelf and tells its number. -/
def push (s : Shelf) (b : Builder) : Shelf × Nat :=
  (⟨s.builders ++ [b]⟩, s.builders.length)

/-- Writes an embedded query. A chain longer than the shelf comes back to a query it started from. -/
def write (s : Shelf) : Nat → Nat → Except Fault (List Piece)
  | 0, _ => .error .endless
  | fuel + 1, id =>
    match s.get? id with
    | none => .error .unsupported
    | some b => b.pieces (s.write fuel) {}

/-- How the queries embedded by a builder of this shelf are written. -/
def embedded (s : Shelf) : Nat → Except Fault (List Piece) :=
  s.write s.builders.length

/-- The statement of a builder with its values, as it would be sent now. -/
def toSql (s : Shelf) (b : Builder) : Except Fault Statement.Bound :=
  if b.stage == .released then .error .renderReleased
  else (b.pieces s.embedded {}).map bind

end Shelf

end TableLoom.Query
