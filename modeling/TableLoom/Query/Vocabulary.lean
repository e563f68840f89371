import TableLoom.Text.Case
import TableLoom.Text.Line
import TableLoom.Value.Literal

/-!
The fixed words of a query: comparison operators, kinds of join, aggregates and directions. A word is
known by its name in any case.
-/

namespace TableLoom.Query

inductive Operator where
  | eq | neq | lt | lte | gt | gte | like | ilike
  | in_ | notIn | isNull | isNotNull | between | notBetween
  deriving DecidableEq

namespace Operator

def all : List Operator :=
  [eq, neq, lt, lte, gt, gte, like, ilike, in_, notIn, isNull, isNotNull, between, notBetween]

def name : Operator → String
  | eq => "eq"
  | neq => "neq"
  | lt => "lt"
  | lte => "lte"
  | gt => "gt"
  | gte => "gte"
  | like => "like"
  | ilike => "ilike"
  | in_ => "in"
  | notIn => "not_in"
  | isNull => "is_null"
  | isNotNull => "is_not_null"
  | between => "between"
  | notBetween => "not_between"

def sql : Operator → String
  | eq => "="
  | neq => "!="
  | lt => "<"
  | lte => "<="
  | gt => ">"
  | gte => ">="
  | like => "LIKE"
  | ilike => "ILIKE"
  | in_ => "IN"
  | notIn => "NOT IN"
  | isNull => "IS NULL"
  | isNotNull => "IS NOT NULL"
  | between => "BETWEEN"
  | notBetween => "NOT BETWEEN"

/-- Operators that take one value. -/
def isComparison : Operator → Bool
  | eq | neq | lt | lte | gt | gte | like | ilike => true
  | _ => false

/-- Operators that take a list. -/
def isMembership : Operator → Bool
  | in_ | notIn => true
  | _ => false

end Operator

inductive JoinKind where
  | inner | left | right | full
  deriving DecidableEq

namespace JoinKind

def all : List JoinKind := [inner, left, right, full]

def name : JoinKind → String
  | inner => "inner"
  | left => "left"
  | right => "right"
  | full => "full"

def sql : JoinKind → String
  | inner => "INNER JOIN"
  | left => "LEFT JOIN"
  | right => "RIGHT JOIN"
  | full => "FULL OUTER JOIN"

end JoinKind

inductive Aggregate where
  | count | sum | avg | min | max
  deriving DecidableEq

namespace Aggregate

def all : List Aggregate := [count, sum, avg, min, max]

def name : Aggregate → String
  | count => "count"
  | sum => "sum"
  | avg => "avg"
  | min => "min"
  | max => "max"

def sql : Aggregate → String
  | count => "COUNT"
  | sum => "SUM"
  | avg => "AVG"
  | min => "MIN"
  | max => "MAX"

end Aggregate

inductive Direction where
  | asc | desc
  deriving DecidableEq

namespace Direction

def all : List Direction := [asc, desc]

def name : Direction → String
  | asc => "asc"
  | desc => "desc"

def sql : Direction → String
  | asc => "ASC"
  | desc => "DESC"

end Direction

/-- The kinds of fixed words. -/
inductive Vocabulary where
  | operator | aggregate | joinKind | direction
  deriving DecidableEq

namespace Vocabulary

def label : Vocabulary → String
  | operator => "operator"
  | aggregate => "aggregate"
  | joinKind => "join type"
  | direction => "sort direction"

def names : Vocabulary → List String
  | operator => Operator.all.map Operator.name
  | aggregate => Aggregate.all.map Aggregate.name
  | joinKind => JoinKind.all.map JoinKind.name
  | direction => Direction.all.map Direction.name

end Vocabulary

/-- The word that a value names, read as text and in lower case. -/
def wordOf? {α : Type} (all : List α) (name : α → String) (v : Value) : Option α :=
  all.find? fun a => name a == Text.lower v.display

end TableLoom.Query
