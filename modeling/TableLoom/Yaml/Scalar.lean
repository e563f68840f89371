import TableLoom.Text.Hex
import TableLoom.Text.Surrogate
import TableLoom.Yaml.Fault
import TableLoom.Yaml.Letter

/-!
The text of scalars: in quotes, without quotes, and in blocks. A line break between two words of a scalar
is folded into a blank, and of several line breaks the first is left out.
-/

namespace TableLoom.Yaml

/-- What stands between two words: blanks, or the line breaks that end a line and the empty lines
behind it. An escaped line break does not count. -/
inductive Gap where
  | blanks (cs : List Char)
  | lines (first : Option Char) (more : List Char)

namespace Gap

def start : Gap := .blanks []

def text : Gap → List Char
  | .blanks cs => cs
  | .lines none more => more
  | .lines (some c) more =>
    if c != '\n' then c :: more else if more.isEmpty then [' '] else more

def isNothing : Gap → Bool
  | .blanks cs => cs.isEmpty
  | .lines _ _ => false

def crosses : Gap → Bool
  | .blanks _ => false
  | .lines _ _ => true

/-- A gap with one more blank; at the edges of lines blanks do not count. -/
def blank (c : Char) : Gap → Gap
  | .blanks cs => .blanks (cs ++ [c])
  | g => g

def newline (c : Char) : Gap → Gap
  | .blanks _ => .lines (some (lineEnd c)) []
  | .lines first more => .lines first (more ++ [lineEnd c])

end Gap

/-- A text and the characters behind it. -/
abbrev Words := Read (List Char × List Char)

/-- Puts characters before a text. -/
def before (cs : List Char) (p : Words) : Words :=
  p.map fun (text, rest) => (cs ++ text, rest)

/-- What an escape of one letter stands for. -/
def escape? (c : Char) : Option Char :=
  [('0', '\x00'), ('a', '\x07'), ('b', '\x08'), ('t', '\t'), ('\t', '\t'), ('n', '\n'),
    ('v', '\x0b'), ('f', '\x0c'), ('r', '\r'), ('e', '\x1b'), (' ', ' '), ('"', '"'),
    ('\\', '\\'), ('/', '/'), ('N', '\u0085'), ('_', '\u00a0'), ('L', '\u2028'),
    ('P', '\u2029')].lookup c

/-- The number of digits behind an escape that gives a code. -/
def codeWidth? (c : Char) : Option Nat :=
  [('x', 2), ('u', 4), ('U', 8)].lookup c

def ofCode (n : Nat) : Read Char :=
  if n.isValidChar then .ok (Char.ofNat n)
  else if n ≤ 0x10FFFF then .ok (Text.ofHalf n)
  else if n < 0x80000000 then .error (.impossible "chr() arg not in range(0x110000)")
  else .error .farOutside

/-- The character whose code comes first, in a number of digits. -/
def codedChar (width : Nat) (cs : List Char) : Read Char :=
  if cs.length < width then refuse
  else match Text.ofHex? (cs.take width) with
    | some n => ofCode n
    | none => refuse

/-- The text up to the closing quote. Between single quotes a quote is written twice, between double
quotes there are escapes. -/
def quoted (double : Bool) (gap : Gap) (cs : List Char) : Words :=
  match cs with
  | [] => refuse
  | c :: rest =>
    if isBlank c then quoted double (gap.blank c) rest
    else if isBreak c then
      if isMarker rest then refuse else quoted double (gap.newline c) rest
    else if double && c == '"' then .ok (gap.text, rest)
    else if !double && c == '\'' then
      match rest with
      | '\'' :: more => before (gap.text ++ ['\'']) (quoted double .start more)
      | _ => .ok (gap.text, rest)
    else if double && c == '\\' then
      match rest with
      | [] => refuse
      | e :: more =>
        if isBreak e then
          if isMarker more then refuse
          else before gap.text (quoted double (.lines none []) more)
        else match escape? e, codeWidth? e with
          | some x, _ => before (gap.text ++ [x]) (quoted double .start more)
          | none, some width =>
            match codedChar width more with
            | .ok x => before (gap.text ++ [x]) (quoted double .start (more.drop width))
            | .error e => .error e
          | none, none => refuse
    else before (gap.text ++ [c]) (quoted double .start rest)
termination_by cs.length
decreasing_by all_goals simp_wf; try omega

/-- Characters that structure a collection in brackets. -/
def isFlowMark (c : Char) : Bool := ",[]\x7b\x7d".toList.contains c

/-- Whether a text without quotes ends before a character. -/
def endsPlain (inFlow : Bool) (c : Char) (rest : List Char) : Bool :=
  isGap c || (c == ':' && (separates rest || (inFlow && rest.head?.any isFlowMark)))
    || (inFlow && (c == '?' || isFlowMark c))

/-- Whether a text without quotes can start with a character. -/
def startsPlain (inFlow : Bool) (c : Char) (rest : List Char) : Bool :=
  !(isGap c || "-?:,[]\x7b\x7d#&*!|>'\"%@`".toList.contains c)
    || (!separates rest && (c == '-' || (!inFlow && (c == '?' || c == ':'))))

/-- A text without quotes, the characters behind it, and whether a line ended between the two. -/
structure Plain where
  text : List Char
  rest : List Char
  crossed : Bool

/-- Reads on in a text without quotes, which a comment, a mark or a line with less indentation ends. -/
def plain (inFlow : Bool) (indent : Int) (gap : Gap) (column : Nat) : List Char → Plain
  | [] => ⟨[], [], gap.crosses⟩
  | c :: rest =>
    if c == ' ' then plain inFlow indent (gap.blank c) (column + 1) rest
    else if isBreak c then
      if isMarker rest then ⟨[], rest, true⟩
      else plain inFlow indent (gap.newline c) 0 rest
    else if endsPlain inFlow c rest || (c == '#' && !gap.isNothing)
        || (!inFlow && gap.crosses && column < indent) then
      ⟨[], c :: rest, gap.crosses⟩
    else
      let p := plain inFlow indent .start 0 rest
      { p with text := gap.text ++ c :: p.text }

/-- What becomes of the line breaks at the end of a block. -/
inductive Chomp where
  | strip | clip | keep

/-- How a block is to be read: what becomes of its end, and how far it is indented. -/
structure Header where
  chomp : Chomp := .clip
  step : Option Nat := none

namespace Header

def withChomp (h : Header) : List Char → Header × List Char
  | '+' :: rest => ({ h with chomp := .keep }, rest)
  | '-' :: rest => ({ h with chomp := .strip }, rest)
  | cs => (h, cs)

def withStep (h : Header) : List Char → Header × List Char
  | c :: rest => if c.isDigit then ({ h with step := some (c.toNat - 48) }, rest) else (h, c :: rest)
  | [] => (h, [])

/-- Both marks, in either order. -/
def ofMarks (cs : List Char) : Header × List Char :=
  match cs with
  | c :: _ =>
    if c.isDigit then let (h, cs) := withStep {} cs; h.withChomp cs
    else let (h, cs) := withChomp {} cs
      if cs.length == (c :: cs).length then (h, cs) else h.withStep cs
  | [] => ({}, [])

/-- The header and the lines behind it. -/
def read? (cs : List Char) : Option (Header × List Char) :=
  let (h, rest) := ofMarks cs
  if h.step == some 0 || rest.head? == some '\t' || !separates rest then none
  else (emptyLine? rest).map (h, ·)

end Header

/-- The breaks of empty lines, the column behind them, the greatest column reached, and the rest. -/
structure Margin where
  breaks : List Char
  column : Nat
  widest : Nat
  rest : List Char

/-- Passes over empty lines and over the indentation of the line behind them, at most up to a column. -/
def margin (limit : Option Nat) (column widest : Nat) (breaks : List Char) : List Char → Margin
  | [] => ⟨breaks, column, widest, []⟩
  | c :: rest =>
    if c == ' ' && limit.all (column < ·) then
      margin limit (column + 1) (max widest (column + 1)) breaks rest
    else if isBreak c then margin limit 0 widest (breaks ++ [lineEnd c]) rest
    else ⟨breaks, column, widest, c :: rest⟩

theorem margin_length_le (limit : Option Nat) (column widest : Nat) (breaks cs : List Char) :
    (margin limit column widest breaks cs).rest.length ≤ cs.length := by
  induction cs generalizing column widest breaks with
  | nil => simp [margin]
  | cons c rest ih =>
    unfold margin
    split
    · exact Nat.le_succ_of_le (ih ..)
    · split
      · exact Nat.le_succ_of_le (ih ..)
      · simp

/-- What stands for the end of a line inside a block. Folding joins two lines that both start with
a word. -/
def joint (folded : Bool) (line next : List Char) (lineBreak : Char) (empty : Bool) : List Char :=
  if folded && lineBreak == '\n' && !line.head?.any isBlank && !next.head?.any isBlank then
    if empty then [' '] else []
  else [lineBreak]

/-- The text of a block, with the break of its last line, the empty lines behind it, and the rest. -/
structure Block where
  text : List Char
  last : List Char
  empty : List Char
  rest : List Char

/-- The lines of a block, from the first one on, behind its indentation. -/
def blockFrom (folded : Bool) (indent : Nat) (cs : List Char) : Block :=
  let line := cs.takeWhile (!isBreak ·)
  match _h : cs.dropWhile (!isBreak ·) with
  | [] => ⟨line, [], [], []⟩
  | c :: after =>
    let m := margin (some indent) 0 0 [] after
    if m.column == indent && !m.rest.isEmpty then
      let b := blockFrom folded indent m.rest
      { b with text := line ++ joint folded line m.rest (lineEnd c) m.breaks.isEmpty
                        ++ m.breaks ++ b.text }
    else ⟨line, [lineEnd c], m.breaks, m.rest⟩
termination_by cs.length
decreasing_by
  have hm := margin_length_le (some indent) 0 0 [] after
  have hd := (List.dropWhile_suffix (l := cs) (!isBreak ·)).length_le
  rw [_h] at hd
  simp only [List.length_cons] at hd
  omega

/-- The block behind its mark, inside a collection with some indentation. -/
def block (folded : Bool) (outer : Int) (cs : List Char) : Words :=
  (orRefuse (Header.read? cs)).map fun (header, lines) =>
    let least := (max 1 (outer + 1)).toNat
    let (indent, m) := match header.step with
      | some n => (least + n - 1, margin (some (least + n - 1)) 0 0 [] lines)
      | none =>
        let m := margin none 0 0 [] lines
        (max least m.widest, m)
    let b : Block :=
      if m.column == indent && !m.rest.isEmpty then
        let b := blockFrom folded indent m.rest
        { b with text := m.breaks ++ b.text }
      else ⟨[], [], m.breaks, m.rest⟩
    let tail := match header.chomp with
      | .strip => []
      | .clip => b.last
      | .keep => b.last ++ b.empty
    (b.text ++ tail, b.rest)

end TableLoom.Yaml
