import TableLoom.Decimal.Numeral
import TableLoom.Text.Base64
import TableLoom.Text.Case
import TableLoom.Value.Literal
import TableLoom.Yaml.Kind
import TableLoom.Yaml.Node

/-!
The data that nodes mean. A scalar without a tag means what its spelling suggests, and of several entries
of a map with equal keys the last one counts. Collections are made level by level, so that of several
faults the one nearest to the root counts.
-/

namespace TableLoom.Yaml

/-- The kinds that tags name. -/
def tagKinds : List (String × Kind) :=
  [("str", .text), ("null", .null), ("bool", .bool), ("int", .int), ("float", .float),
    ("timestamp", .moment), ("binary", .bytes), ("merge", .merge), ("value", .value)].map
    fun (name, k) => (standardTag ++ name, k)

/-- Whether a node has no tag of its own. -/
def isUntagged (tag : Option String) : Bool := tag == none || tag == some "!"

/-- The kind of a scalar: by its tag, by its spelling when it has no quotes, or a text. -/
def kindOf? (tag : Option String) (isPlain : Bool) (text : String) : Option Kind :=
  if tag == some "!" then some (.of text)
  else match tag with
    | some t => tagKinds.lookup t
    | none => some (if isPlain then .of text else .text)

/-- A number in base sixty, the parts of which stand between colons. -/
def sixtyfold (parts : List Int) : Int :=
  parts.foldl (fun n p => 60 * n + p) 0

/-- The number that a text writes in a base. -/
def wholeIn (base : Nat) (cs : List Char) : Read Int :=
  (Decimal.whole? base cs).mapError fun r =>
    .impossible (r.message base (Text.quoted (String.ofList cs)))

/-- A sign, and the rest of a text without underscores; there has to be something. -/
def unsigned (text : String) : Read (Bool × List Char) :=
  match text.toList.filter (· != '_') with
  | [] => .error .noDigits
  | cs => .ok (Decimal.signed cs)

/-- A whole number. Underscores do not count. -/
def readInt (text : String) : Read Int := do
  let (negative, cs) ← unsigned text
  let size ← match cs with
    | [] => .error .noDigits
    | ['0'] => .ok 0
    | '0' :: 'b' :: ds => wholeIn 2 ds
    | '0' :: 'x' :: ds => wholeIn 16 ds
    | '0' :: _ => wholeIn 8 cs
    | _ =>
      if cs.contains ':' then sixtyfold <$> (Text.splitChars ':' cs).mapM (wholeIn 10)
      else wholeIn 10 cs
  return if negative then -size else size

/-- A number in base sixty whose parts may have fractions; parts are added from the last one on. -/
def sixtyfoldFloat (parts : List Float) : Float :=
  (parts.reverse.foldl (fun (sum, base) p => (sum + p * Decimal.ofInt base, base * 60))
    ((0.0, 1) : Float × Int)).1

/-- A number with a fraction, an infinity, or the value that is no number. -/
def readFloat (text : String) : Read Float := do
  let (negative, cs) ← unsigned (Text.lower text)
  let read (ds : List Char) : Read Float :=
    match Decimal.anyNumber? ds with
    | some x => .ok x
    | none =>
      .error (.impossible s!"could not convert string to float: {Text.quoted (String.ofList ds)}")
  let size ←
    if cs == ".inf".toList then .ok (1.0 / 0.0)
    else if cs == ".nan".toList then .ok (0.0 / 0.0)
    else if cs.contains ':' then sixtyfoldFloat <$> (Text.splitChars ':' cs).mapM read
    else read cs
  return if negative then -size else size

/-- A number at the start of a text, and what follows the character behind it. -/
def counted (cs : List Char) : Nat × List Char :=
  (Decimal.ofDigits (cs.takeWhile Char.isDigit), (cs.dropWhile Char.isDigit).tail)

/-- Millionths from the digits of a fraction; further digits do not count. -/
def millionths (ds : List Char) : Nat :=
  Decimal.ofDigits ((ds ++ List.replicate 6 '0').take 6)

/-- The distance of a zone in minutes. -/
def readZone (cs : List Char) : Option Int :=
  match cs.dropWhile isBlank with
  | 'Z' :: _ => some 0
  | c :: rest =>
    if c == '+' || c == '-' then
      let (hours, rest) := counted rest
      let (minutes, _) := counted rest
      let n : Int := 60 * hours + minutes
      some (if c == '-' then -n else n)
    else none
  | [] => none

/-- The time of day, behind the day. -/
def readClock (cs : List Char) : Option Clock :=
  match cs.dropWhile (fun c => isBlank c || c == 'T' || c == 't') with
  | [] => none
  | cs =>
    let (hour, cs) := counted cs
    let (minute, cs) := counted cs
    let second := Decimal.ofDigits (cs.takeWhile Char.isDigit)
    let cs := cs.dropWhile Char.isDigit
    let (fraction, cs) := match cs with
      | '.' :: r => (r.takeWhile Char.isDigit, r.dropWhile Char.isDigit)
      | r => ([], r)
    some { hour, minute, second, micro := millionths fraction, zone := readZone cs }

/-- What is wrong with a moment that the calendar or the clock does not have. -/
def momentFlaw? (m : Moment) : Option String :=
  let zone := (m.clock.bind (·.zone)).getD 0
  if 1440 ≤ zone.natAbs then
    some ("offset must be a timedelta strictly between -timedelta(hours=24) and "
      ++ s!"timedelta(hours=24), not {Moment.spanLiteral zone}.")
  else if m.year == 0 then some "year 0 is out of range"
  else if m.month == 0 || 12 < m.month then some "month must be in 1..12"
  else if m.day == 0 || Moment.daysIn m.year m.month < m.day then
    some "day is out of range for month"
  else match m.clock with
    | none => none
    | some c =>
      if 24 ≤ c.hour then some "hour must be in 0..23"
      else if 60 ≤ c.minute then some "minute must be in 0..59"
      else if 60 ≤ c.second then some "second must be in 0..59"
      else none

/-- A day with two digits for month and day, or with one digit for some. -/
def isMoment (cs : List Char) : Bool :=
  let oneOrTwo := Text.Pattern.seq .digit (.optional .digit)
  Kind.momentPattern.test cs
    || Text.Pattern.test (.all [.times 4 .digit, .one '-', oneOrTwo, .one '-', oneOrTwo]) cs

/-- A day, perhaps with a time of day. -/
def readMoment (text : String) : Read Moment :=
  let cs := text.toList
  if !isMoment cs then .error .noMoment
  else
    let (year, cs) := counted cs
    let (month, cs) := counted cs
    let day := Decimal.ofDigits (cs.takeWhile Char.isDigit)
    let m : Moment := { year, month, day, clock := readClock (cs.dropWhile Char.isDigit) }
    match momentFlaw? m with
    | some flaw => .error (.impossible flaw)
    | none => .ok m

def readFlag (text : String) : Read Bool :=
  let word := Text.lower text
  if (Kind.trueWords.map Text.lower).contains word then .ok true
  else if (Kind.falseWords.map Text.lower).contains word then .ok false
  else .error (.noFlag word)

/-- Bytes written in base sixty-four. -/
def readBytes (text : String) : Read ByteArray :=
  orRefuse (Text.bytesOfBase64? text.toList)

def scalarValue (kind : Option Kind) (text : String) : Read Value :=
  match kind with
  | some .text => .ok (.text text)
  | some .null => .ok .null
  | some .bool => .bool <$> readFlag text
  | some .int => .int <$> readInt text
  | some .float => .float <$> readFloat text
  | some .moment => .moment <$> readMoment text
  | some .bytes => .bytes <$> readBytes text
  | some .merge | some .value | none => refuse

/-- The kind of a scalar, or the one that the tag of a collection names. -/
def Node.kind? : Node → Option Kind
  | .scalar tag isPlain text => kindOf? tag isPlain text
  | .list tag _ | .map tag _ => tag.bind fun t => tagKinds.lookup t
  | .again _ => none

/-- What collections may be made into. -/
inductive Shape where
  | list | map | set | pairs
  deriving DecidableEq

/-- The shape that the tag of a collection names, or that its own kind has. -/
def shapeOf? (own : Shape) (tag : Option String) : Option Shape :=
  if isUntagged tag then some own
  else
    let named := [("seq", Shape.list), ("map", .map), ("set", .set), ("omap", .pairs),
      ("pairs", .pairs)].map fun (name, s) => (standardTag ++ name, s)
    tag.bind fun t => named.lookup t

def canBeKey : Value → Bool
  | .list _ | .map _ | .set _ => false
  | _ => true

/-- Whether two keys are the same one; numbers are compared by their size. -/
def sameKey (a b : Value) : Bool :=
  let size : Value → Option Float
    | .bool b => some (if b then 1.0 else 0.0)
    | .int n => some (Decimal.ofInt n)
    | .float x => some x
    | _ => none
  match a, b with
  | .null, .null => true
  | .text s, .text t => s == t
  | .bytes b, .bytes c => b == c
  | .moment m, .moment n => m == n
  | .int m, .int n => m == n
  | a, b => match size a, size b with
    | some x, some y => x == y
    | _, _ => false

/-- Adds an entry: in place of one with the same key, or at the end. -/
def addEntry (entries : List (Value × Value)) (entry : Value × Value) : List (Value × Value) :=
  if entries.any fun e => sameKey e.1 entry.1 then
    entries.map fun e => if sameKey e.1 entry.1 then (e.1, entry.2) else e
  else entries ++ [entry]

def ofEntries (entries : List (Value × Value)) : Value :=
  .map (entries.foldl addEntry [])


/-- Keys, each of them once. -/
def distinctKeys (entries : List (Value × Value)) : List Value :=
  (entries.foldl addEntry []).map (·.1)

/-- A fault, and the number of collections between it and the node that is made. -/
structure Setback where
  level : Nat
  fault : Fault

/-- What a node comes to. -/
abbrev Meant (α : Type) := Except Setback α

/-- A fault that is met at the node itself. -/
def here {α : Type} (r : Read α) : Meant α :=
  r.mapError (⟨0, ·⟩)

/-- What is met only when a collection is filled. -/
def inside {α : Type} (m : Meant α) : Meant α :=
  m.mapError fun s => { s with level := s.level + 1 }

/-- Both of two; of two setbacks the one that is met first. -/
def both {α β : Type} (a : Meant α) (b : Meant β) : Meant (α × β) :=
  match a, b with
  | .ok a, .ok b => .ok (a, b)
  | .error s, .ok _ => .error s
  | .ok _, .error t => .error t
  | .error s, .error t => .error (if s.level ≤ t.level then s else t)

/-- Data as a key: collections cannot be one, whatever they hold. -/
def asKey (m : Meant Value) : Meant Value :=
  match m with
  | .ok v => if canBeKey v then .ok v else here refuse
  | .error s => if s.level == 0 then .error s else here refuse

mutual

/-- Whether only maps are merged into a map. -/
def mergesWell : List (Node × Node) → Bool
  | [] => true
  | (k, v) :: rest => (k.kind? != some .merge || isMergeable v) && mergesWell rest

def isMergeable : Node → Bool
  | .map _ entries => mergesWell entries
  | .list _ items => areMergeable items
  | _ => false

def areMergeable : List Node → Bool
  | [] => true
  | .map _ entries :: rest => mergesWell entries && areMergeable rest
  | _ :: _ => false

end

/-- The scalar that a map gives under the key of default values. -/
def defaultText? : List (Node × Node) → Option String
  | [] => none
  | (k, v) :: rest =>
    if k.kind? == some .value then
      match v with
      | .scalar _ _ text => some text
      | .map _ entries => defaultText? entries
      | _ => none
    else defaultText? rest

/-- A map whose tag names a kind of scalars. -/
def scalarOfEntries (kind : Option Kind) (entries : List (Node × Node)) : Read Value :=
  match kind, defaultText? entries with
  | some .moment, some _ => .error .noScalar
  | kind, some text => scalarValue kind text
  | _, none => refuse

/-- The text that a key of default values is. -/
def plainKey : Node → Read Value
  | .scalar _ _ text => .ok (.text text)
  | .map _ entries => (orRefuse (defaultText? entries)).map .text
  | _ => refuse

/-- Entries in the order in which they count: those that are merged in come before the others. -/
structure Entries where
  merged : List (Value × Value) := []
  own : List (Value × Value) := []

def Entries.all (es : Entries) : List (Value × Value) := es.merged ++ es.own

mutual

def Node.value : Node → Meant Value
  | .scalar tag isPlain text => here (scalarValue (kindOf? tag isPlain text) text)
  | .list tag items =>
    match shapeOf? .list tag with
    | some .list => inside ((values items).map .list)
    | some .pairs => inside ((pairValues items).map .list)
    | some _ => inside (here refuse)
    | none => here refuse
  | .map tag entries =>
    match shapeOf? .map tag with
    | some .map => inside ((allEntries entries).map ofEntries)
    | some .set => inside ((allEntries entries).map fun es => .set (distinctKeys es))
    | some _ => inside (here refuse)
    | none => here (scalarOfEntries (tag.bind fun t => tagKinds.lookup t) entries)
  | .again _ => here refuse

def values : List Node → Meant (List Value)
  | [] => .ok []
  | n :: ns => (both n.value (values ns)).map fun (v, vs) => v :: vs

/-- The pairs of a list of maps with one entry each. -/
def pairValues : List Node → Meant (List Value)
  | [] => .ok []
  | .map _ [(k, v)] :: rest =>
    (both (both k.value v.value) (pairValues rest)).map fun ((k, v), ps) => .list [k, v] :: ps
  | _ :: _ => here refuse

def allEntries (entries : List (Node × Node)) : Meant (List (Value × Value)) :=
  if mergesWell entries then (entryValues entries).map Entries.all else here refuse

/-- The entries of a map, merged ones apart. -/
def entryValues : List (Node × Node) → Meant Entries
  | [] => .ok {}
  | (k, v) :: rest =>
    if k.kind? == some .merge then
      (both (mergedEntries v) (entryValues rest)).map fun (merged, es) =>
        { es with merged := merged ++ es.merged }
    else
      -- A lone sign of equality is a text where a key is expected.
      let key := if k.kind? == some .value then here (plainKey k) else asKey k.value
      (both (both key v.value) (entryValues rest)).map fun (entry, es) =>
        { es with own := entry :: es.own }

/-- What a map takes over from another one. -/
def mergedEntries : Node → Meant (List (Value × Value))
  | .map _ entries => (entryValues entries).map Entries.all
  | .list _ items => mergedItems items
  | _ => here refuse

/-- What a map takes over from several; the first of them counts most. -/
def mergedItems : List Node → Meant (List (Value × Value))
  | [] => .ok []
  | .map _ entries :: rest =>
    (both (entryValues entries) (mergedItems rest)).map fun (es, more) => more ++ es.all
  | _ :: _ => here refuse

end

/-- The data of a whole document. -/
def Node.data (n : Node) : Read Value :=
  n.value.mapError (·.fault)

end TableLoom.Yaml
