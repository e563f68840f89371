import TableLoom.Query.Piece
import TableLoom.Text.Identifier

/-!
Which row a column of a statement belongs to. Every source of rows goes by a name; a column is looked up
among the sources of the query in which it stands, then further out, and a query that stands among
sources sees those to its left only if it is lateral.
-/

namespace TableLoom.Query

/-- A name as a database reads it: in small letters, and without the line break that may follow it. -/
def asRead (name : String) : String :=
  String.ofList ((Text.dropLineEnd name.toList).map Char.toLower)

/-- A column behind the name of a source. -/
structure ColumnRef where
  source : String
  column : String

def ColumnRef.sql (c : ColumnRef) : String :=
  c.source ++ "." ++ c.column

/-- What a query reads rows from: a table, or a query in parentheses, which has a source of its own and may
compare two columns. -/
inductive Source where
  | table (table : String) (label : Option String)
  | query (lateral : Bool) (head : String) (source : Source) (equation : Option (ColumnRef × ColumnRef))
    (rest : List Piece) (label : String)

/-- The names of the sources that a column sees, those of the innermost query first. -/
abbrev Scope := List (List String)

namespace Source

/-- The name that a source goes by. -/
def label : Source → String
  | table name label => label.getD name
  | query _ _ _ _ _ label => label

def pieces : Source → List Piece
  | table name none => [.text name]
  | table name (some label) => [.text (name ++ " AS " ++ label)]
  | query lateral head source equation rest label =>
    .text ((if lateral then "LATERAL (" else "(") ++ head ++ " FROM ") :: source.pieces
      ++ (equation.toList.map fun (l, r) => .text (" WHERE " ++ l.sql ++ " = " ++ r.sql)) ++ rest
      ++ [.text (") AS " ++ label)]

/-- The columns that are compared in a source, with what they see, given the sources to its left and what
is seen from outside. -/
def compared (left : List String) (around : Scope) : Source → List (ColumnRef × Scope)
  | table _ _ => []
  | query lateral _ source equation _ _ =>
    let outside := if lateral then left :: around else around
    source.compared [] outside
      ++ equation.toList.flatMap fun (l, r) =>
        [(l, [source.label] :: outside), (r, [source.label] :: outside)]

end Source

/-- A source that is joined to those on its left. -/
structure Joined where
  kind : String
  source : Source
  condition : String

def Joined.pieces (j : Joined) : List Piece :=
  .text (" " ++ j.kind ++ " ") :: j.source.pieces ++ [.text (" ON " ++ j.condition)]

/-- The sources of a statement: a table and what is joined to it. -/
structure From where
  table : String
  joined : List Joined

namespace From

def pieces (f : From) : List Piece :=
  .text (" FROM " ++ f.table) :: f.joined.flatMap Joined.pieces

/-- The columns that are compared in joined sources, with what they see. -/
def comparedIn (left : List String) : List Joined → List (ColumnRef × Scope)
  | [] => []
  | j :: rest => j.source.compared left [] ++ comparedIn (left ++ [j.source.label]) rest

def compared (f : From) : List (ColumnRef × Scope) :=
  comparedIn [f.table] f.joined

end From

/-- A name stands for the source at a place of a level: none further in has that name, and of its own level
no other does. -/
inductive Resolves (name : String) : Scope → Nat → Nat → Prop
  | here {level : List String} {around : Scope} {i : Nat} {label : String} (at_ : level[i]? = some label)
    (named : asRead label = asRead name)
    (alone : ∀ j other, level[j]? = some other → asRead other = asRead name → j = i) :
    Resolves name (level :: around) 0 i
  | further {level : List String} {around : Scope} {depth i : Nat}
    (absent : ∀ other ∈ level, asRead other ≠ asRead name) (outside : Resolves name around depth i) :
    Resolves name (level :: around) (depth + 1) i

namespace Resolves

variable {name : String} {label : String} {level : List String} {around : Scope}

/-- A name stands for the only source of the innermost query exactly if that source has it. -/
theorem first_iff : Resolves name ([label] :: around) 0 0 ↔ asRead label = asRead name := by
  constructor
  · rintro (⟨at_, named, -⟩ | _)
    obtain rfl := Option.some.inj at_
    exact named
  · refine fun named => .here rfl named fun j other hj _ => ?_
    exact Nat.lt_one_iff.mp (List.getElem?_eq_some_iff.mp hj).1

/-- A name stands for the leftmost source of a level further out exactly if the source further in has
another name and so have those to the right. -/
theorem leftmost_iff :
    Resolves name ([label] :: (name :: level) :: around) 1 0 ↔
      asRead label ≠ asRead name ∧ ∀ other ∈ level, asRead other ≠ asRead name := by
  constructor
  · rintro (_ | ⟨absent, ⟨-, -, alone⟩⟩)
    refine ⟨absent label (List.mem_singleton_self label), fun other hother named => ?_⟩
    obtain ⟨j, hj⟩ := List.getElem?_of_mem hother
    exact absurd (alone (j + 1) other hj named) (Nat.succ_ne_zero j)
  · rintro ⟨hlabel, hlevel⟩
    refine .further (by simpa using hlabel) (.here rfl rfl fun j other hj named => ?_)
    cases j with
    | zero => rfl
    | succ j => exact absurd named (hlevel other (List.mem_of_getElem? hj))

end Resolves

end TableLoom.Query
