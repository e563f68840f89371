import TableLoom.Query.Fault
import TableLoom.Statement.Write
import TableLoom.Value.Basic

/-!
Statements before their placeholders are numbered. A phrase of a query is text with the places where
bound values stand and the places where other queries are embedded; once the embedded queries are
written out, pieces of text and slots remain, and slots are numbered from left to right.
-/

namespace TableLoom.Query

/-- Text, or the place of a bound value. -/
inductive Piece where
  | text (s : String)
  | slot (v : Value)

/-- A piece, or the place of another query, known by its number. -/
inductive Part where
  | text (s : String)
  | slot (v : Value)
  | query (id : Nat)
  /-- The place of data that is neither text nor a query. -/
  | unwritable

abbrev Phrase := List Part

/-- The bound values of a statement, from left to right. -/
def values : List Piece → List Value
  | [] => []
  | .text _ :: rest => values rest
  | .slot v :: rest => v :: values rest

/-- The text of a statement whose slots are numbered from `n` on. -/
def sqlFrom (n : Nat) : List Piece → String
  | [] => ""
  | .text s :: rest => s ++ sqlFrom n rest
  | .slot _ :: rest => Statement.placeholder n ++ sqlFrom (n + 1) rest

/-- A statement with its numbered text and its values. -/
def bind (ps : List Piece) : Statement.Bound :=
  ⟨sqlFrom 1 ps, values ps⟩

/-- Whether nothing would be written. -/
def isBlank : List Piece → Bool
  | [] => true
  | .text s :: rest => s.isEmpty && isBlank rest
  | .slot _ :: _ => false

/-- Joins sequences with a separator between neighbours. -/
def joined {α : Type} (sep : List α) : List (List α) → List α
  | [] => []
  | [x] => x
  | x :: rest => x ++ sep ++ joined sep rest

/-- The parts of raw text: every question mark is the place of the next value. -/
def rawParts : List (List Char) → List Value → Phrase
  | [], _ => []
  | [s], _ => [.text (String.ofList s)]
  | s :: rest, v :: vs => .text (String.ofList s) :: .slot v :: rawParts rest vs
  | s :: _, [] => [.text (String.ofList s)]

def raw (sql : String) (params : List Value) : Phrase :=
  rawParts (Text.splitChars '?' sql.toList) params

/-- Writes the embedded queries out. What cannot be written is refused only here. -/
def expand (write : Nat → Except Fault (List Piece)) : Phrase → Except Fault (List Piece)
  | [] => .ok []
  | .unwritable :: _ => .error .unsupported
  | .text s :: rest => do return .text s :: (← expand write rest)
  | .slot v :: rest => do return .slot v :: (← expand write rest)
  | .query id :: rest => do
    let inner ← write id
    return inner ++ (← expand write rest)

end TableLoom.Query
