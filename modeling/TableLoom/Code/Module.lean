import TableLoom.Code.Definition
import TableLoom.Code.Import

/-!
A whole module: its title, what it imports, what it defines, and the sibling modules that it imports
last because those import it too.
-/

namespace TableLoom.Code

/-- A sibling module and the name that it goes by here. -/
structure Sibling where
  module : String
  alias_ : String
  deriving DecidableEq

structure Module where
  title : String
  /-- Groups of imports, each a block of lines. -/
  imports : List String
  items : List Item
  siblings : List Sibling := []

/-- What the head of every emitted file says below its title. -/
def generatedNote : String := "Generated by fluentorm. Do not edit."

/-- The lines that open a file. -/
def titleLines (title : String) : List String :=
  ["\"\"\"", title, generatedNote, "\"\"\"", ""]

/-- A text without line breaks at its end, and then one. -/
def endLine (s : String) : String :=
  String.ofList ((s.toList.reverse.dropWhile (· == '\n')).reverse) ++ "\n"

namespace Module

def names (m : Module) : List String :=
  m.items.flatMap Item.names

def classes (m : Module) : List RecordClass :=
  m.items.filterMap fun
    | .record c => some c
    | _ => none

def functions (m : Module) : List Function :=
  m.items.filterMap fun
    | .function f => some f
    | _ => none

def siblingLines (siblings : List Sibling) : List String :=
  if siblings.isEmpty then []
  else ["", "# Related tables; imported last because table modules import each other."]
    ++ siblings.map fun s => s!"from . import {s.module} as {s.alias_}  # noqa: E402"

def lines (style : Style) (m : Module) : List String :=
  titleLines m.title ++ ["from __future__ import annotations"]
    ++ m.imports.flatMap (fun block => ["", block])
    ++ m.items.flatMap (fun i => List.replicate i.distance ""
      ++ (i.lines style).map (Line.render style))
    ++ siblingLines m.siblings

def text (style : Style) (m : Module) : String :=
  endLine (Text.join "\n" (m.lines style))

end Module

end TableLoom.Code
