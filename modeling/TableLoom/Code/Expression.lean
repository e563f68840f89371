import TableLoom.Text.Line
import TableLoom.Text.Quoted

/-!
Small pieces of emitted source: annotations and literals.
-/

namespace TableLoom.Code

/-- The type of what may also be nothing; one that allows it already stays. -/
def optionalOf (type : String) : String :=
  if type == "Any" || "Optional[".toList.isPrefixOf type.toList then type
  else s!"Optional[{type}]"

/-- A tuple of texts; a lone one keeps its comma. -/
def textTuple : List String → String
  | [name] => "(" ++ Text.sourceQuoted name ++ ",)"
  | names => "(" ++ Text.join ", " (names.map Text.sourceQuoted) ++ ")"

/-- The alias under which the module of a related table is imported. -/
def moduleAlias (table : String) : String :=
  "_" ++ table

end TableLoom.Code
