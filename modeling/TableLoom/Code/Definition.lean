import TableLoom.Code.Expression

/-!
What an emitted module is made of: constants, classes and functions, and the lines that they are
written as.
-/

namespace TableLoom.Code

/-- How source is laid out. -/
structure Style where
  indent : Nat := 4
  documented : Bool := true

/-- A line at a depth. -/
structure Line where
  depth : Nat := 0
  text : String
  deriving DecidableEq

namespace Line

def deeper (n : Nat) (l : Line) : Line := { l with depth := l.depth + n }

def render (style : Style) (l : Line) : String :=
  Text.repeated (style.indent * l.depth) ' ' ++ l.text

end Line

/-- The line between groups. -/
def gap : Line := { text := "" }

/-- A name with its type and, where it may be left out, what it then stands for. -/
structure Binding where
  name : String
  type : String
  default : Option String := none
  deriving DecidableEq

def Binding.text (b : Binding) : String :=
  match b.default with
  | some d => s!"{b.name}: {b.type} = {d}"
  | none => s!"{b.name}: {b.type}"

/-- What a name is set to. -/
inductive Literal where
  | text (s : String)
  | tuple (ss : List String)
  | mapping (entries : List (String × String))
  /-- Source as it stands. -/
  | source (s : String)
  /-- Items between brackets, a line each. -/
  | listing (opening closing : String) (items : List String)
  deriving DecidableEq

namespace Literal

def mappingText (entries : List (String × String)) : String :=
  "\x7b" ++ Text.join ", " (entries.map fun (k, v) => Text.sourceQuoted k ++ ": "
    ++ Text.sourceQuoted v) ++ "\x7d"

/-- The lines of a literal behind the head of an assignment. -/
def lines (head : String) : Literal → List Line
  | .text s => [{ text := head ++ Text.sourceQuoted s }]
  | .tuple ss => [{ text := head ++ textTuple ss }]
  | .mapping entries => [{ text := head ++ mappingText entries }]
  | .source s => [{ text := head ++ s }]
  | .listing opening closing items =>
    { text := head ++ opening } :: items.map (fun i => { depth := 1, text := i ++ "," })
      ++ [{ text := closing }]

end Literal

/-- A name, perhaps with its type, and what it is set to. -/
structure Assignment where
  name : String
  type : Option String := none
  value : Literal
  deriving DecidableEq

def Assignment.lines (a : Assignment) : List Line :=
  match a.type with
  | some t => a.value.lines s!"{a.name}: {t} = "
  | none => a.value.lines s!"{a.name} = "

/-- The line that documents a class or function. -/
def docLine (style : Style) (doc : Option String) : List Line :=
  match doc with
  | some d => if style.documented then [{ depth := 1, text := "\"\"\"" ++ d ++ "\"\"\"" }] else []
  | none => []

/-- What a function is called with: perhaps the object or class itself, then parameters by place,
parameters by name alone, and perhaps a name for all others. -/
structure Signature where
  receiver : Option String := none
  positional : List Binding := []
  named : List Binding := []
  others : Option Binding := none
  deriving DecidableEq

namespace Signature

def names (s : Signature) : List String :=
  s.receiver.toList ++ (s.positional ++ s.named ++ s.others.toList).map (·.name)

def inlineTexts (s : Signature) : List String :=
  s.receiver.toList ++ s.positional.map Binding.text
    ++ s.others.toList.map fun b => "**" ++ b.text

/-- The head of a definition: on one line, unless parameters are given by name. -/
def lines (name result : String) (s : Signature) : List Line :=
  if s.named.isEmpty then
    [{ text := s!"def {name}(" ++ Text.join ", " s.inlineTexts ++ s!") -> {result}:" }]
  else
    { text := s!"def {name}(" }
      :: (s.inlineTexts ++ ["*"] ++ s.named.map Binding.text).map
        (fun p => { depth := 1, text := p ++ "," })
      ++ [{ text := s!") -> {result}:" }]

end Signature

structure Function where
  name : String
  signature : Signature
  result : String
  doc : Option String := none
  /-- Whether it belongs to the class and not to its objects. -/
  ofClass : Bool := false
  body : List Line
  deriving DecidableEq

def Function.lines (style : Style) (f : Function) : List Line :=
  (if f.ofClass then [{ text := "@classmethod" }] else [])
    ++ f.signature.lines f.name f.result
    ++ docLine style f.doc
    ++ f.body.map (Line.deeper 1)

/-- A group of a class's body. -/
inductive Section where
  | settings (assignments : List Assignment)
  | members (bindings : List Binding)
  | method (f : Function)
  deriving DecidableEq

def Section.lines (style : Style) : Section → List Line
  | .settings as => as.flatMap Assignment.lines
  | .members bs => bs.map fun b => { text := b.text }
  | .method f => f.lines style

structure RecordClass where
  name : String
  base : String
  doc : String
  sections : List Section
  deriving DecidableEq

namespace RecordClass

def members (c : RecordClass) : List Binding :=
  c.sections.flatMap fun
    | .members bs => bs
    | _ => []

/-- Every group stands behind an empty line. -/
def lines (style : Style) (c : RecordClass) : List Line :=
  { text := s!"class {c.name}({c.base}):" } :: docLine style (some c.doc)
    ++ c.sections.flatMap fun g => gap :: (g.lines style).map (Line.deeper 1)

end RecordClass

/-- What stands at the top level of a module. -/
inductive Item where
  | constants (assignments : List Assignment)
  /-- A constant set off on its own. -/
  | table (assignment : Assignment)
  | record (c : RecordClass)
  | function (f : Function)
  deriving DecidableEq

namespace Item

def lines (style : Style) : Item → List Line
  | .constants as => as.flatMap Assignment.lines
  | .table a => a.lines
  | .record c => c.lines style
  | .function f => f.lines style

/-- The empty lines before an item. -/
def distance : Item → Nat
  | .table _ => 1
  | _ => 2

def names : Item → List String
  | .constants as => as.map (·.name)
  | .table a => [a.name]
  | .record c => [c.name]
  | .function f => [f.name]

end Item

end TableLoom.Code
