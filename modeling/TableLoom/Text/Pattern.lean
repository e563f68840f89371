/-!
Regular patterns of characters, matched against whole texts by taking derivatives.
-/

namespace TableLoom.Text

inductive Pattern where
  /-- No text at all. -/
  | none
  /-- The empty text. -/
  | empty
  | char (p : Char → Bool)
  | seq (a b : Pattern)
  | alt (a b : Pattern)
  /-- Any number of times. -/
  | star (a : Pattern)

namespace Pattern

def both (a b : Pattern) : Pattern :=
  match a, b with
  | .none, _ => .none
  | _, .none => .none
  | .empty, b => b
  | a, b => .seq a b

def either (a b : Pattern) : Pattern :=
  match a, b with
  | .none, b => b
  | a, .none => a
  | a, b => .alt a b

def optional (a : Pattern) : Pattern := .alt .empty a
def many1 (a : Pattern) : Pattern := .seq a (.star a)
def one (c : Char) : Pattern := .char (· == c)
def oneOf (s : String) : Pattern := .char (s.toList.contains ·)
def digit : Pattern := .char Char.isDigit

def word (s : String) : Pattern :=
  s.toList.foldr (fun c rest => .seq (one c) rest) .empty

def words (ss : List String) : Pattern :=
  ss.foldr (fun s rest => .alt (word s) rest) .none

/-- Patterns one after the other. -/
def all (ps : List Pattern) : Pattern :=
  ps.foldr .seq .empty

def times (n : Nat) (a : Pattern) : Pattern :=
  all (List.replicate n a)

/-- Whether the empty text matches. -/
def nullable : Pattern → Bool
  | .none => false
  | .empty => true
  | .char _ => false
  | .seq a b => a.nullable && b.nullable
  | .alt a b => a.nullable || b.nullable
  | .star _ => true

/-- What has to match behind a character. -/
def derive (c : Char) : Pattern → Pattern
  | .none => .none
  | .empty => .none
  | .char p => if p c then .empty else .none
  | .seq a b =>
    if a.nullable then either (both (a.derive c) b) (b.derive c) else both (a.derive c) b
  | .alt a b => either (a.derive c) (b.derive c)
  | .star a => both (a.derive c) (.star a)

/-- Whether a whole text matches. -/
def test : Pattern → List Char → Bool
  | p, [] => p.nullable
  | .none, _ => false
  | p, c :: rest => test (p.derive c) rest

end Pattern

end TableLoom.Text
