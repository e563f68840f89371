import TableLoom.Text.Utf8
import TableLoom.Yaml.Scalar

/-!
The tokens of a YAML text, and how those are spelled that are written with names.
-/

namespace TableLoom.Yaml

/-- A line that says how to read the document below it. -/
inductive Directive where
  | version (major minor : Nat)
  /-- A handle that stands for the beginning of tags. -/
  | handle (name tag : String)
  | other
  deriving DecidableEq

inductive Token where
  | directive (d : Directive)
  | documentStart
  | documentEnd
  /-- The start of a list or map that is marked by its indentation, and the end of either. -/
  | blockList
  | blockMap
  | blockEnd
  | flowList
  | flowListEnd
  | flowMap
  | flowMapEnd
  | item
  | comma
  | key
  | value
  | copy (name : String)
  | anchor (name : String)
  /-- A tag: what follows a handle, or all of it. -/
  | tag (handle : Option String) (rest : String)
  | scalar (isPlain : Bool) (text : String)
  deriving DecidableEq

/-- A token and the characters behind it, if there is one. -/
abbrev Token? := Option (Token × List Char)

/-- Letters that one reads at the start of a text, and the rest; there has to be one. -/
def many1? (p : Char → Bool) (cs : List Char) : Option (String × List Char) :=
  match cs.takeWhile p with
  | [] => none
  | letters => some (String.ofList letters, cs.dropWhile p)

def anchorName? (cs : List Char) : Option (String × List Char) :=
  (many1? isNameLetter cs).filter fun (_, rest) =>
    separates rest || rest.head?.any "?:,]\x7d%@`".toList.contains

def isTagLetter (c : Char) : Bool :=
  c.isAlphanum || "-;/?:@&=+$,_.!~*'()[]".toList.contains c

/-- Bytes written as a percent sign and two digits each. -/
def percentBytes : List Char → List UInt8 × List Char
  | '%' :: a :: b :: rest =>
    match Text.ofHex? [a, b] with
    | some n => let (bytes, rest) := percentBytes rest; (UInt8.ofNat n :: bytes, rest)
    | none => ([], '%' :: a :: b :: rest)
  | cs => ([], cs)

/-- The letters of a tag. Each step takes letters up to a percent sign or the bytes behind it. -/
def tagLetters? : Nat → List Char → Option (List Char × List Char)
  | 0, _ => none
  | fuel + 1, cs =>
    let letters := cs.takeWhile isTagLetter
    let rest := cs.dropWhile isTagLetter
    if rest.head? != some '%' then some (letters, rest) else do
      let (bytes, rest) := percentBytes rest
      if rest.head? == some '%' then none
      let text ← Text.Utf8.decode? ⟨bytes.toArray⟩
      let (more, rest) ← tagLetters? fuel rest
      return (letters ++ text.toList ++ more, rest)

/-- A tag or the rest of one; it is not empty. -/
def tagText? (cs : List Char) : Option (String × List Char) :=
  ((tagLetters? (cs.length + 1) cs).filter fun (text, _) => !text.isEmpty).map
    fun (text, rest) => (String.ofList text, rest)

/-- A handle: an exclamation mark, or a name between two of them. -/
def handle? (cs : List Char) : Option (String × List Char) :=
  match cs with
  | '!' :: rest =>
    if rest.head? == some ' ' then some ("!", rest)
    else match rest.dropWhile isNameLetter with
      | '!' :: more => some ("!" ++ String.ofList (rest.takeWhile isNameLetter) ++ "!", more)
      | _ => none
  | _ => none

/-- Whether a tag has a handle with a name: whether another exclamation mark comes before a blank. -/
def hasHandle (cs : List Char) : Bool :=
  (cs.takeWhile fun c => !(c == ' ' || isBreak c)).any (· == '!')

def endsTag (cs : List Char) : Bool := separates cs && cs.head? != some '\t'

/-- A tag, behind its exclamation mark. -/
def tag? (cs : List Char) : Token? := do
  let (token, rest) ← match cs with
    | '<' :: inner => do
      let (text, rest) ← tagText? inner
      if rest.head? == some '>' then some (Token.tag none text, rest.tail) else none
    | _ =>
      if separates cs then some (Token.tag none "!", cs)
      else do
        let (handle, rest) ← if hasHandle cs then handle? ('!' :: cs) else some ("!", cs)
        let (text, rest) ← tagText? rest
        pure (Token.tag (some handle) text, rest)
  if endsTag rest then some (token, rest) else none

def number? (cs : List Char) : Option (Nat × List Char) :=
  (many1? Char.isDigit cs).bind fun (digits, rest) => digits.toNat?.map (·, rest)

def version? (cs : List Char) : Option (Directive × List Char) := do
  let (major, rest) ← number? (cs.dropWhile (· == ' '))
  let (minor, rest) ← number? (← if rest.head? == some '.' then some rest.tail else none)
  if endsTag rest then some (.version major minor, rest) else none

def introduced? (cs : List Char) : Option (Directive × List Char) := do
  let (name, rest) ← handle? (cs.dropWhile (· == ' '))
  if rest.head? != some ' ' then none
  let (tag, rest) ← tagText? (rest.dropWhile (· == ' '))
  if endsTag rest then some (.handle name tag, rest) else none

/-- A directive, behind its percent sign, with the rest of its line. -/
def directive? (cs : List Char) : Token? := do
  let (name, rest) ← many1? isNameLetter cs
  if !endsTag rest then none
  let (directive, rest) ← match name with
    | "YAML" => version? rest
    | "TAG" => introduced? rest
    | _ => some (.other, rest.dropWhile (!isBreak ·))
  (emptyLine? rest).map (.directive directive, ·)

end TableLoom.Yaml
