import TableLoom.Decimal.Numeral
import TableLoom.Decimal.Shortest
import TableLoom.Text.Quoted
import TableLoom.Value.Basic

/-!
How data reads in messages: quoted texts, `None`, `True` and `False`, lists in brackets and maps in
braces.
-/

namespace TableLoom.Value

def shownByte (quote : Char) (b : UInt8) : List Char :=
  let c := Char.ofNat b.toNat
  if b.toNat < 128 then Text.shown quote c else '\\' :: 'x' :: Text.hexPadded 2 b.toNat

def quotedBytes (b : ByteArray) : String :=
  let quote := Text.messageQuote (b.toList.map fun x => Char.ofNat x.toNat)
  String.ofList ('b' :: quote :: b.toList.flatMap (shownByte quote) ++ [quote])

mutual

/-- Data as messages write it, with texts in quotes. -/
def literal : Value → String
  | .null => "None"
  | .bool b => if b then "True" else "False"
  | .int n => toString n
  | .float x => Decimal.render x
  | .text s => Text.quoted s
  | .bytes b => quotedBytes b
  | .moment m => m.literal
  | .list items => "[" ++ ", ".intercalate (literals items) ++ "]"
  | .set [] => "set()"
  | .set (v :: rest) => "\x7b" ++ ", ".intercalate (literals (v :: rest)) ++ "\x7d"
  | .map entries => "\x7b" ++ ", ".intercalate (entryLiterals entries) ++ "\x7d"

/-- The items of a list, each as a message writes it. -/
def literals : List Value → List String
  | [] => []
  | v :: rest => v.literal :: literals rest

/-- The entries of a map, each as a message writes it. -/
def entryLiterals : List (Value × Value) → List String
  | [] => []
  | (k, v) :: rest => (k.literal ++ ": " ++ v.literal) :: entryLiterals rest

end

mutual

/-- Whether messages can write some data: no whole number in it has too many digits. -/
def isShowable : Value → Bool
  | .int n => Decimal.isWritable n
  | .list items | .set items => areShowable items
  | .map entries => areEntriesShowable entries
  | _ => true

def areShowable : List Value → Bool
  | [] => true
  | v :: rest => v.isShowable && areShowable rest

def areEntriesShowable : List (Value × Value) → Bool
  | [] => true
  | (k, v) :: rest => k.isShowable && v.isShowable && areEntriesShowable rest

end

/-- Data as running text: a text stands for itself. -/
def display : Value → String
  | .text s => s
  | .moment m => m.text
  | v => v.literal

/-- Several texts, each in quotes, between brackets. -/
def literalTexts (ss : List String) : String :=
  "[" ++ ", ".intercalate (ss.map Text.quoted) ++ "]"

/-- Data that counts as a yes: all but nothing, no, zero and what is empty. -/
def truthy : Value → Bool
  | .null => false
  | .bool b => b
  | .int n => n != 0
  | .float x => (Decimal.Binary.ofBits x.toBits).m != 0
  | .text s => !s.isEmpty
  | .bytes b => !b.isEmpty
  | .moment _ => true
  | .list items | .set items => !items.isEmpty
  | .map entries => !entries.isEmpty

end TableLoom.Value
