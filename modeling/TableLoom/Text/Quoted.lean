import TableLoom.Text.Hex
import TableLoom.Text.Printable
import TableLoom.Text.Surrogate

/-!
Two ways to quote a text. In messages it stands between single quotes, or between double quotes when
it holds a single quote and no double one; unprintable characters are shown by number. In emitted
source it stands between double quotes, and only the backslash and the double quote are escaped.
-/

namespace TableLoom.Text

/-- An unprintable character shown by its number, in as few digits as its range has. -/
def numbered (c : Char) : List Char :=
  let n := codeOf c
  if n < 0x100 then '\\' :: 'x' :: hexPadded 2 n
  else if n < 0x10000 then '\\' :: 'u' :: hexPadded 4 n
  else '\\' :: 'U' :: hexPadded 8 n

/-- One character between the given quotes. -/
def shown (quote c : Char) : List Char :=
  if c == quote || c == '\\' then ['\\', c]
  else if c == '\n' then ['\\', 'n']
  else if c == '\t' then ['\\', 't']
  else if c == '\r' then ['\\', 'r']
  else if isPrintable c then [c]
  else numbered c

/-- The quote that a text gets in a message. -/
def messageQuote (cs : List Char) : Char :=
  if cs.contains '\'' && !cs.contains '"' then '"' else '\''

/-- A text as messages quote it. -/
def quoted (s : String) : String :=
  let cs := s.toList
  let quote := messageQuote cs
  String.ofList (quote :: cs.flatMap (shown quote) ++ [quote])

/-- One character of a text in emitted source. -/
def sourceChar (c : Char) : List Char :=
  if c == '\\' || c == '"' then ['\\', c] else [c]

def sourceQuoted (s : String) : String :=
  String.ofList ('"' :: s.toList.flatMap sourceChar ++ ['"'])

end TableLoom.Text
