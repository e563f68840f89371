import TableLoom.Text.Line

/-!
The import lines of an emitted module: the names needed from each source module, in code-point order
and without repetition.
-/

namespace TableLoom.Code

/-- Names needed from modules, in the order in which the modules were first asked for. -/
abbrev Imports := List (String × List String)

namespace Imports

/-- Adds a name unless it is there. -/
def addName (name : String) (names : List String) : List String :=
  if names.contains name then names else names ++ [name]

def addAll (module : String) (names : List String) : Imports → Imports
  | [] => [(module, names.foldl (fun acc n => addName n acc) [])]
  | (m, have_) :: rest =>
    if m == module then (m, names.foldl (fun acc n => addName n acc) have_) :: rest
    else (m, have_) :: addAll module names rest

def add (module name : String) (imports : Imports) : Imports :=
  imports.addAll module [name]

/-- All that either asks for. -/
def merge (a b : Imports) : Imports :=
  b.foldl (fun acc (m, names) => acc.addAll m names) a

def mergeAll (all : List Imports) : Imports :=
  all.foldl merge []

def sorted (names : List String) : List String :=
  names.mergeSort (· ≤ ·)

/-- The line that imports from one module; without names the module itself is imported. -/
def line (entry : String × List String) : String :=
  if entry.2.isEmpty then s!"import {entry.1}"
  else s!"from {entry.1} import " ++ Text.join ", " (sorted entry.2)

/-- One line for every module, in order. -/
def block (imports : Imports) : String :=
  Text.join "\n" ((imports.mergeSort fun a b => a.1 ≤ b.1).map line)

end Imports

end TableLoom.Code
