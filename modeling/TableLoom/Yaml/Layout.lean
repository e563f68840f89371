import TableLoom.Yaml.Token

/-!
The tokens of a YAML text, with the structure that its layout implies. Indentation opens and closes
collections; and what turns out to be a key, by the colon behind it, is marked as one where it began.
-/

namespace TableLoom.Yaml

/-- A place in a text. -/
structure Place where
  index : Nat := 0
  line : Nat := 0
  column : Nat := 0

/-- The place behind a character. -/
def Place.step (p : Place) (c : Char) : Place :=
  if isBreak c then ⟨p.index + 1, p.line + 1, 0⟩
  else ⟨p.index + 1, p.line, if c == '\ufeff' then p.column else p.column + 1⟩

/-- Something that will be a key if a colon follows it. -/
structure Candidate where
  /-- The number of open brackets around it. -/
  depth : Nat
  /-- The number of tokens before it. -/
  index : Nat
  place : Place
  /-- Whether nothing else than a key can stand there. -/
  required : Bool

/-- A text that is partly read. -/
structure Layout where
  rest : List Char
  place : Place := {}
  tokens : Array Token := #[]
  /-- The number of open brackets. -/
  depth : Nat := 0
  /-- The column of the innermost open block, and those around it. -/
  indent : Int := -1
  outer : List Int := []
  /-- Whether a key can stand here. -/
  keyAllowed : Bool := true
  candidates : List Candidate := []

namespace Layout

def inFlow (l : Layout) : Bool := 0 < l.depth

def emit (l : Layout) (t : Token) : Layout :=
  { l with tokens := l.tokens.push t }

/-- Puts a token before those from an index on. -/
def insert (l : Layout) (index : Nat) (t : Token) : Layout :=
  { l with tokens := l.tokens.extract 0 index ++ #[t] ++ l.tokens.extract index l.tokens.size }

/-- Passes over characters. -/
def pass (l : Layout) (n : Nat) : Layout :=
  { l with rest := l.rest.drop n, place := (l.rest.take n).foldl Place.step l.place }

/-- Passes over everything before the rest. -/
def moveTo (l : Layout) (rest : List Char) : Layout :=
  l.pass (l.rest.length - rest.length)

/-- What is left behind blanks, comments and line ends, and whether a line ended. -/
def skip (inComment : Bool) : List Char → List Char × Bool
  | [] => ([], false)
  | c :: rest =>
    if isBreak c then ((skip false rest).1, true)
    else if inComment || c == ' ' then skip inComment rest
    else if c == '#' then skip true rest
    else (c :: rest, false)

/-- Goes to the next token. -/
def toToken (l : Layout) : Layout :=
  let (rest, crossed) := skip false l.rest
  let l := l.moveTo rest
  if crossed && !l.inFlow then { l with keyAllowed := true } else l

/-- Whether a candidate can still become a key: a key stands on one line and is not too long. -/
def isLive (l : Layout) (c : Candidate) : Bool :=
  c.place.line == l.place.line && l.place.index ≤ c.place.index + 1024

/-- Gives up candidates; none of them may be required. -/
def giveUp (l : Layout) (given : Candidate → Bool) : Read Layout :=
  if l.candidates.any fun c => given c && c.required then refuse
  else .ok { l with candidates := l.candidates.filter (!given ·) }

/-- Gives up the candidate inside the innermost brackets. -/
def giveUpHere (l : Layout) : Read Layout :=
  l.giveUp (·.depth == l.depth)

/-- Notes that a key may begin here. -/
def offer (l : Layout) : Read Layout :=
  if l.keyAllowed then do
    let required := !l.inFlow && l.indent == l.place.column
    let l ← l.giveUpHere
    return { l with candidates := ⟨l.depth, l.tokens.size, l.place, required⟩ :: l.candidates }
  else .ok l

/-- The columns of the blocks that stay open, and how many are closed. -/
def closing (column : Int) (indent : Int) : List Int → Int × List Int × Nat
  | [] => (indent, [], 0)
  | o :: outer =>
    if column < indent then
      let (i, os, n) := closing column o outer
      (i, os, n + 1)
    else (indent, o :: outer, 0)

/-- Closes the blocks that are indented further than a column. -/
def closeTo (l : Layout) (column : Int) : Layout :=
  if l.inFlow then l
  else
    let (indent, outer, n) := closing column l.indent l.outer
    { l with indent, outer, tokens := l.tokens ++ Array.replicate n Token.blockEnd }

/-- Opens a block at a column, unless one is open there; its start goes before the tokens from an
index on. -/
def openAt (l : Layout) (column index : Nat) (t : Token) : Layout :=
  if !l.inFlow && l.indent < column then
    { l.insert index t with indent := column, outer := l.indent :: l.outer }
  else l

/-- Opens a block here, where a key or an item begins. -/
def openHere (l : Layout) (t : Token) : Read Layout :=
  if l.inFlow then .ok l
  else if !l.keyAllowed then refuse
  else .ok (l.openAt l.place.column l.tokens.size t)

/-- Emits the mark of one or more characters. -/
def mark (l : Layout) (n : Nat) (t : Token) : Layout :=
  (l.pass n).emit t

/-- A line that starts or ends a document closes all blocks. -/
def boundary (l : Layout) : Read Layout :=
  (l.closeTo (-1)).giveUpHere.map fun l => { l with keyAllowed := false }

/-- Something that may turn out to be a key. -/
def word (l : Layout) (token : Read (Token × List Char)) : Read Layout := do
  let (t, rest) ← token
  let l ← l.offer
  return { (l.moveTo rest).emit t with keyAllowed := false }

def openFlow (l : Layout) (t : Token) : Read Layout := do
  let l ← l.offer
  return { l.mark 1 t with depth := l.depth + 1, keyAllowed := true }

def closeFlow (l : Layout) (t : Token) : Read Layout :=
  if !l.inFlow then refuse
  else l.giveUpHere.map fun l => { l.mark 1 t with depth := l.depth - 1, keyAllowed := false }

def comma (l : Layout) : Read Layout :=
  l.giveUpHere.map fun l => { l.mark 1 .comma with keyAllowed := true }

def item (l : Layout) : Read Layout := do
  let l ← l.openHere .blockList
  let l ← l.giveUpHere
  return { l.mark 1 .item with keyAllowed := true }

def key (l : Layout) : Read Layout := do
  let l ← l.openHere .blockMap
  let l ← l.giveUpHere
  return { l.mark 1 .key with keyAllowed := !l.inFlow }

/-- A colon. The candidate before it becomes a key, and opens a block if none is open there. -/
def value (l : Layout) : Read Layout :=
  match l.candidates.find? (·.depth == l.depth) with
  | some c =>
    let l := { l with candidates := l.candidates.filter (·.depth != l.depth) }
    let l := (l.insert c.index .key).openAt c.place.column c.index .blockMap
    .ok { l.mark 1 .value with keyAllowed := false }
  | none => do
    let l ← l.openHere .blockMap
    return { l.mark 1 .value with keyAllowed := !l.inFlow }

def blockScalar (l : Layout) (folded : Bool) (cs : List Char) : Read Layout := do
  let l ← l.giveUpHere
  let (text, rest) ← block folded l.indent cs
  return { (l.moveTo rest).emit (.scalar false (String.ofList text)) with keyAllowed := true }

def quotedScalar (l : Layout) (double : Bool) (cs : List Char) : Read Layout :=
  l.word ((quoted double .start cs).map fun (text, rest) =>
    (.scalar false (String.ofList text), rest))

def plainScalar (l : Layout) : Read Layout := do
  let p := plain l.inFlow (l.indent + 1) .start 0 l.rest
  let l ← l.word (.ok (.scalar true (String.ofList p.text), p.rest))
  return { l with keyAllowed := p.crossed }

/-- Reads the token that begins with a character. -/
def token (l : Layout) (c : Char) (rest : List Char) : Read Layout :=
  let lineStart := l.place.column == 0
  if lineStart && c == '%' then do
    let (t, rest) ← orRefuse (directive? rest)
    let l ← l.boundary
    return (l.moveTo rest).emit t
  else if lineStart && startsDocument l.rest then l.boundary.map (·.mark 3 .documentStart)
  else if lineStart && endsDocument l.rest then l.boundary.map (·.mark 3 .documentEnd)
  else if c == '[' then l.openFlow .flowList
  else if c == '\x7b' then l.openFlow .flowMap
  else if c == ']' then l.closeFlow .flowListEnd
  else if c == '\x7d' then l.closeFlow .flowMapEnd
  else if c == ',' then l.comma
  else if c == '-' && separates rest then l.item
  else if c == '?' && (l.inFlow || separates rest) then l.key
  else if c == ':' && (l.inFlow || separates rest) then l.value
  else if c == '*' then l.word (orRefuse ((anchorName? rest).map fun (n, rest) => (.copy n, rest)))
  else if c == '&' then l.word (orRefuse ((anchorName? rest).map fun (n, rest) => (.anchor n, rest)))
  else if c == '!' then l.word (orRefuse (tag? rest))
  else if c == '|' && !l.inFlow then l.blockScalar false rest
  else if c == '>' && !l.inFlow then l.blockScalar true rest
  else if c == '\'' then l.quotedScalar false rest
  else if c == '"' then l.quotedScalar true rest
  else if startsPlain l.inFlow c rest then l.plainScalar
  else refuse

/-- The tokens from here on. Every step passes over a character at least. -/
def tokensFrom : Nat → Layout → Read (List Token)
  | 0, _ => refuse
  | fuel + 1, l => do
    let l := l.toToken
    let l ← l.giveUp (!l.isLive ·)
    let l := l.closeTo l.place.column
    match l.rest with
    | [] => return (← l.boundary).tokens.toList
    | c :: rest => tokensFrom fuel (← l.token c rest)

end Layout

def Token.ofText (cs : List Char) : Read (List Token) :=
  Layout.tokensFrom (cs.length + 1) { rest := cs }

end TableLoom.Yaml
