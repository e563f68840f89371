import TableLoom.Yaml.Layout
import TableLoom.Yaml.Meaning

/-!
Reading YAML: the data of the only document that a text holds.
-/

namespace TableLoom.Yaml

/-- A text without the mark that may stand before it. -/
def dropMark : List Char → List Char
  | '\ufeff' :: rest => rest
  | cs => cs

/-- The data that a text stands for. -/
def read (text : String) : Read Value := do
  let cs := text.toList
  if !cs.all isReadable then refuse
  (← Node.ofTokens (← Token.ofText (dropMark cs))).data

end TableLoom.Yaml
