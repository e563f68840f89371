import TableLoom.Code.Keyword
import TableLoom.Code.Module
import TableLoom.Proofs.Text.Tokens

/-!
The names that emitted source reads. Literals are left out and the rest is taken as tokens. A name is
read unless it is an attribute, or is defined, set or given as a parameter there. Each line of a module
stands in a scope: that of the module alone, or that of a function too.
-/

namespace TableLoom.Code

open Text (IsName readTokens)

/-- Whether a character stands in a literal, and there perhaps behind a backslash. -/
inductive Quoting where
  | outside | inside | escaped
  deriving DecidableEq

def Quoting.next : Quoting → Char → Quoting
  | outside, c => if c == '"' then inside else outside
  | inside, c => if c == '"' then outside else if c == '\\' then escaped else inside
  | escaped, _ => inside

/-- Of a literal only the quotes are kept. -/
def Quoting.keeps : Quoting → Char → Bool
  | outside, _ => true
  | inside, c => c == '"'
  | escaped, _ => false

/-- Source without what its literals hold. -/
def hollow : Quoting → List Char → List Char
  | _, [] => []
  | q, c :: rest => (if q.keeps c then [c] else []) ++ hollow (q.next c) rest

/-- The tokens of a line of source, with two quotes for each literal. A line break keeps tokens apart as
a blank does. -/
def words (s : String) : List String :=
  (readTokens [] (hollow .outside s.toList)).filter (· != "\n")

/-- The tokens behind a name show that it is set there, or that it names a parameter or an argument. A type
that is followed by a default is none of these. -/
def isSet (before : String) : List String → Bool
  | ":" :: _ :: _ => true
  | "=" :: _ => before != ":"
  | _ => false

/-- Tokens that are followed by a name which is not read. -/
def introducers : List String := [".", "def", "class", "for"]

def isRead (before token : String) (behind : List String) : Bool :=
  decide (IsName token) && !isKeyword token && !introducers.contains before && !isSet before behind

def readsFrom (before : String) : List String → List String
  | [] => []
  | t :: rest => if isRead before t rest then t :: readsFrom t rest else readsFrom t rest

/-- The names that a line of source reads. -/
def reads (s : String) : List String :=
  readsFrom "" (words s)

/-- The names that a statement sets, if its tokens begin with some. -/
def targets : List String → List String
  | n :: ":" :: _ :: _ => [n]
  | n :: "=" :: _ => [n]
  | n :: "," :: rest => if targets rest = [] then [] else n :: targets rest
  | _ => []

/-- The names that loops run through. -/
def loopNames : List String → List String
  | "for" :: n :: rest => n :: loopNames (n :: rest)
  | _ :: rest => loopNames rest
  | [] => []

def binds (tokens : List String) : List String :=
  targets tokens ++ loopNames tokens

example : reads "row: Dict[str, Any] = find(db.one(\"a b\", [id], exact=True)) if id else None" =
    ["Dict", "str", "Any", "find", "db", "id", "id"] := by
  decide +kernel

/-- A line and the names that are bound around it, beside those of the module. -/
structure Scoped where
  bound : List String
  line : Line

def Scoped.deeper (n : Nat) (s : Scoped) : Scoped := { s with line := s.line.deeper n }

/-- The line of the module, or of a class, whose names are not bound around its lines. -/
def Line.open_ (l : Line) : Scoped := ⟨[], l⟩

namespace Function

def head (f : Function) : List Line :=
  (if f.ofClass then [{ text := "@classmethod" }] else []) ++ f.signature.lines f.name f.result

/-- The parameters, and what the statements of the body set. -/
def locals (f : Function) : List String :=
  f.signature.names.flatMap words ++ f.body.flatMap fun l => binds (words l.text)

def inScope (style : Style) (f : Function) : List Scoped :=
  f.head.map (⟨f.signature.receiver.toList, ·⟩) ++ (docLine style f.doc).map Line.open_
    ++ f.body.map fun l => ⟨f.locals, l.deeper 1⟩

end Function

def Section.inScope (style : Style) : Section → List Scoped
  | .settings as => (as.flatMap Assignment.lines).map Line.open_
  | .members bs => bs.map fun b => Line.open_ { text := b.text }
  | .method f => f.inScope style

def RecordClass.inScope (style : Style) (k : RecordClass) : List Scoped :=
  (({ text := s!"class {k.name}({k.base}):" } :: docLine style (some k.doc)).map Line.open_)
    ++ k.sections.flatMap fun g => gap.open_ :: (g.inScope style).map (Scoped.deeper 1)

def Item.inScope (style : Style) : Item → List Scoped
  | .constants as => (as.flatMap Assignment.lines).map Line.open_
  | .table a => a.lines.map Line.open_
  | .record k => k.inScope style
  | .function f => f.inScope style

/-- The lines of a module's items in their scopes. -/
def Module.inScope (style : Style) (m : Module) : List Scoped :=
  m.items.flatMap (Item.inScope style)

theorem map_line_open (ls : List Line) : (ls.map Line.open_).map (·.line) = ls := by
  simp [Line.open_, Function.comp_def]

theorem Function.map_line_inScope (style : Style) (f : Function) :
    (f.inScope style).map (·.line) = f.lines style := by
  simp [inScope, head, lines, Line.open_, Function.comp_def]

theorem Section.map_line_inScope (style : Style) (g : Section) :
    (g.inScope style).map (·.line) = g.lines style := by
  cases g with
  | settings as => exact map_line_open _
  | members bs => simp [inScope, lines, Line.open_, Function.comp_def]
  | method f => exact f.map_line_inScope style

theorem RecordClass.map_line_inScope (style : Style) (k : RecordClass) :
    (k.inScope style).map (·.line) = k.lines style := by
  have hsection (g : Section) : ((g.inScope style).map (Scoped.deeper 1)).map (·.line) =
      (g.lines style).map (Line.deeper 1) := by
    rw [← g.map_line_inScope style, List.map_map, List.map_map]
    rfl
  simp only [inScope, lines, List.map_append, map_line_open, List.map_flatMap, List.map_cons, hsection]
  rfl

/-- Every line that an item is written as stands in some scope. -/
theorem Item.map_line_inScope (style : Style) (i : Item) :
    (i.inScope style).map (·.line) = i.lines style := by
  cases i with
  | constants as => exact map_line_open _
  | table a => exact map_line_open _
  | record k => exact k.map_line_inScope style
  | function f => exact f.map_line_inScope style

theorem Module.map_line_inScope (style : Style) (m : Module) :
    (m.inScope style).map (·.line) = m.items.flatMap (Item.lines style) := by
  simp only [inScope, List.map_flatMap, Item.map_line_inScope]

end TableLoom.Code
