import Mathlib.Data.List.Nodup
import Mathlib.Data.List.TakeWhile
import TableLoom.Generation.TableModule
import TableLoom.Proofs.Text.Legible
import TableLoom.Proofs.Text.Split
import TableLoom.Proofs.Text.Tokens

/-!
Emitted constants read back. Source is read as the emitted language reads it: literals between double
quotes with all escapes but names of characters, tuples and mappings of them, and lines that set a name.
A quoted text is read as that text if no character of it ends a line or cannot stand in source at all; a
text with such a character is not read.
-/

namespace TableLoom.Code

open Generation (putEntry)

/-- What an expression stands for. -/
inductive Datum where
  | text (s : String)
  | tuple (ss : List String)
  | mapping (entries : List (String × String))
  deriving DecidableEq

/-- A character that a literal on one line cannot hold as it stands: one that ends the line, the null
character, and half of a pair. -/
def breaksLiteral (c : Char) : Bool :=
  c == '\n' || c == '\r' || c == '\x00' || Text.isHalf c

/-- The character of a code, where halves of pairs are kept as texts keep them. -/
def ofCode? (n : Nat) : Option Char :=
  if 0xD800 ≤ n && n < 0xE000 then some (Text.ofHalf n)
  else if n < 0x110000 then some (Char.ofNat n)
  else none

/-- A character by its code in as many digits of base sixteen, behind a letter. -/
def byNumber (width : Nat) (cs : List Char) : Option (List Char × Nat) :=
  if cs.length < width then none
  else ((Text.ofHex? (cs.take width)).bind ofCode?).map fun c => ([c], width + 1)

/-- Letters and marks that stand for one character behind a backslash. -/
def escapes : List (Char × Char) :=
  [('\\', '\\'), ('\'', '\''), ('"', '"'), ('a', '\x07'), ('b', '\x08'), ('f', '\x0c'), ('n', '\n'),
    ('r', '\r'), ('t', '\t'), ('v', '\x0b')]

/-- Letters behind which digits give the code of a character, and how many. -/
def widths : List (Char × Nat) :=
  [('x', 2), ('u', 4), ('U', 8)]

def isOctal (c : Char) : Bool :=
  '0' ≤ c && c ≤ '7'

/-- The character that some digits give in base eight. -/
def byOctal (digits : List Char) : Char :=
  Char.ofNat (digits.foldl (fun n d => 8 * n + (d.toNat - 48)) 0)

/-- What is meant behind a backslash, and how many characters say so. An unknown escape is meant as it
stands. -/
def escaped : List Char → Option (List Char × Nat)
  | [] => none
  | c :: rest =>
    match escapes.lookup c, widths.lookup c with
    | some meant, _ => some ([meant], 1)
    | none, some width => byNumber width rest
    | none, none =>
      let digits := ((c :: rest).take 3).takeWhile isOctal
      if !digits.isEmpty then some ([byOctal digits], digits.length)
      else if c == 'N' || breaksLiteral c then none
      else some (['\\', c], 1)

/-- The pieces of an expression. -/
inductive Piece where
  | text (s : String)
  | mark (c : Char)
  deriving DecidableEq

/-- Where reading stands: between literals, or in one, with what was read of it and the number of
characters to come that are read already. -/
inductive Reading where
  | between
  | within (cs : List Char) (ahead : Nat)

def marks : List Char := ['(', ')', '{', '}', ',', ':']

/-- The pieces of an expression on one line. Literals that go over several lines are not read. -/
def pieces : Reading → List Char → Option (List Piece)
  | .between, [] => some []
  | .within _ _, [] => none
  | .within cs (ahead + 1), _ :: rest => pieces (.within cs ahead) rest
  | .within cs 0, c :: rest =>
    if c == '"' then (pieces .between rest).map (.text (String.ofList cs) :: ·)
    else if c == '\\' then
      (escaped rest).bind fun (meant, used) => pieces (.within (cs ++ meant) used) rest
    else if breaksLiteral c then none
    else pieces (.within (cs ++ [c]) 0) rest
  | .between, c :: rest =>
    if c == '"' then
      if ['"', '"'].isPrefixOf rest then none else pieces (.within [] 0) rest
    else if c == ' ' then pieces .between rest
    else if marks.contains c then (pieces .between rest).map (.mark c :: ·)
    else none

/-- The texts of a tuple behind its opening bracket. -/
def tupleTexts : List Piece → Option (List String)
  | [.mark ')'] => some []
  | [.text s, .mark ')'] => some [s]
  | .text s :: .mark ',' :: rest => (tupleTexts rest).map (s :: ·)
  | _ => none

/-- The entries of a mapping behind its opening bracket. -/
def mappingEntries : List Piece → Option (List (String × String))
  | [.mark '\x7d'] => some []
  | [.text k, .mark ':', .text v, .mark '\x7d'] => some [(k, v)]
  | .text k :: .mark ':' :: .text v :: .mark ',' :: rest => (mappingEntries rest).map ((k, v) :: ·)
  | _ => none

def mappingOf (entries : List (String × String)) : List (String × String) :=
  entries.foldl (fun acc e => putEntry e.1 e.2 acc) []

/-- What pieces stand for. A lone text between brackets is that text. -/
def datum? : List Piece → Option Datum
  | [.text s] => some (.text s)
  | [.mark '(', .text s, .mark ')'] => some (.text s)
  | .mark '(' :: rest => (tupleTexts rest).map .tuple
  | .mark '\x7b' :: rest => (mappingEntries rest).map fun es => .mapping (mappingOf es)
  | _ => none

/-- What an expression on one line stands for. -/
def read? (expression : String) : Option Datum :=
  (pieces .between expression.toList).bind datum?

def isTypeChar (c : Char) : Bool :=
  Text.isNameRest c || [' ', '[', ']', ','].contains c

/-- The name that a line sets, and what it sets it to. -/
def readAssignment (line : String) : Option (String × Datum) :=
  match line.toList.dropWhile Text.isNameRest with
  | ':' :: rest =>
    match rest.dropWhile isTypeChar with
    | '=' :: value =>
      ((pieces .between value).bind datum?).map
        (String.ofList (line.toList.takeWhile Text.isNameRest), ·)
    | _ => none
  | _ => none

example : readAssignment "A: tuple = (\"\\\\\", \"\\x41\\n\\u00e9\\101\")" =
    some ("A", .tuple ["\\", "A\né" ++ "A"]) := by
  decide +kernel

/-- No character of the text breaks a literal. -/
def Plain (s : String) : Prop :=
  Text.Each (breaksLiteral · = false) s

instance (s : String) : Decidable (Plain s) :=
  List.decidableBAll (breaksLiteral · = false) s.toList

theorem breaksLiteral_of_printable {c : Char} (low : 32 ≤ c.toNat) (high : c.toNat < 127) :
    breaksLiteral c = false := by
  have hne {d : Char} (hd : d.toNat < 32) : (c == d) = false := by
    rw [beq_eq_false_iff_ne]
    rintro rfl
    omega
  rw [breaksLiteral, hne (by decide), hne (by decide), hne (by decide),
    Text.isHalf_of_ascii (by omega)]
  rfl

theorem breaksLiteral_of_isNameRest {c : Char} (h : Text.isNameRest c = true) :
    breaksLiteral c = false := by
  have hbounds : 48 ≤ c.toNat ∧ c.toNat ≤ 122 := by
    rw [Text.isNameRest, Char.isAlphanum, Bool.or_eq_true, Bool.or_eq_true, beq_iff_eq] at h
    rcases h with (halpha | hdigit) | rfl
    · have := Text.toNat_of_isAlpha halpha
      omega
    · have := Text.toNat_of_isDigit hdigit
      omega
    · decide
  exact breaksLiteral_of_printable (by omega) (by omega)

section

variable {rest : List Char}

theorem escaped_quote {c : Char} (h : c = '\\' ∨ c = '"') (rest : List Char) :
    escaped (c :: rest) = some ([c], 1) := by
  rcases h with rfl | rfl <;> rfl

/-- The characters of a quoted text are read one by one, up to the quote behind them. -/
theorem pieces_within (cs : List Char) {ds : List Char} (plain : ∀ d ∈ ds, breaksLiteral d = false)
    (rest : List Char) :
    pieces (.within cs 0) (ds.flatMap Text.sourceChar ++ '"' :: rest) =
      (pieces .between rest).map (.text (String.ofList (cs ++ ds)) :: ·) := by
  -- What was read before goes along, and each character is added to it.
  induction ds generalizing cs with
  | nil => simp [pieces]
  | cons d ds ih =>
      obtain ⟨hd, hds⟩ := List.forall_mem_cons.mp plain
      have hrest := ih (cs ++ [d]) hds
      rw [List.append_assoc, List.singleton_append] at hrest
      by_cases hquote : d = '\\' ∨ d = '"'
      · have hchars : Text.sourceChar d = ['\\', d] := by
          rw [Text.sourceChar, if_pos (by simpa using hquote)]
        rw [List.flatMap_cons, hchars, ← hrest, List.append_assoc]
        simp [pieces, escaped_quote hquote]
      · have hchars : Text.sourceChar d = [d] := by
          rw [Text.sourceChar, if_neg (by simpa using hquote)]
        rw [not_or] at hquote
        rw [List.flatMap_cons, hchars, ← hrest, List.append_assoc, List.singleton_append, pieces,
          if_neg (by simpa using hquote.2), if_neg (by simpa using hquote.1), if_neg (by simp [hd])]

end

/-- The text is read as these pieces wherever no further quote follows. -/
def Reads (s : String) (ps : List Piece) : Prop :=
  ∀ rest : List Char, rest.head? ≠ some '"' →
    pieces .between (s.toList ++ rest) = (pieces .between rest).map (ps ++ ·)

theorem reads_quoted {s : String} (plain : Plain s) : Reads (Text.sourceQuoted s) [.text s] := by
  intro rest hrest
  -- Neither an empty text nor an escaped quote makes the beginning of a longer literal.
  have hshort : ['"', '"'].isPrefixOf (s.toList.flatMap Text.sourceChar ++ '"' :: rest) = false := by
    cases hs : s.toList with
    | nil =>
        cases rest with
        | nil => rfl
        | cons c rest =>
            have hne : '"' ≠ c := fun heq => hrest (congrArg some heq.symm)
            simp [List.isPrefixOf_cons_cons, hne]
    | cons c cs =>
        rw [List.flatMap_cons, Text.sourceChar]
        split
        · rfl
        · next hother =>
            simp only [Bool.or_eq_true, beq_iff_eq, not_or] at hother
            simp [List.isPrefixOf_cons_cons, Ne.symm hother.2]
  have hchars : (Text.sourceQuoted s).toList ++ rest =
      '"' :: (s.toList.flatMap Text.sourceChar ++ '"' :: rest) := by
    simp [Text.sourceQuoted]
  rw [hchars, pieces.eq_5, if_pos (beq_self_eq_true '"'), hshort, if_neg Bool.false_ne_true,
    pieces_within [] plain]
  simp

/-- Two texts with a comma or a colon and a blank between them. -/
theorem Reads.behind {a b : String} {ps qs : List Piece} (ha : Reads a ps) (hb : Reads b qs) {c : Char}
    (hc : c = ',' ∨ c = ':') : Reads (a ++ String.ofList [c, ' '] ++ b) (ps ++ .mark c :: qs) := by
  intro rest hrest
  have hmark (more : List Char) :
      pieces .between (c :: ' ' :: more) = (pieces .between more).map (.mark c :: ·) := by
    rcases hc with rfl | rfl <;> simp [pieces, marks]
  have hapart : (c :: ' ' :: (b.toList ++ rest)).head? ≠ some '"' := by
    rcases hc with rfl | rfl <;> simp
  have hchars : (a ++ String.ofList [c, ' '] ++ b).toList ++ rest =
      a.toList ++ c :: ' ' :: (b.toList ++ rest) := by
    simp
  rw [hchars, ha _ hapart, hmark, hb rest hrest]
  simp [Function.comp_def]

theorem reads_join {α : Type} {f : α → String} {g : α → List Piece} {as : List α}
    (h : ∀ a ∈ as, Reads (f a) (g a)) :
    Reads (Text.join ", " (as.map f)) ([.mark ','].intercalate (as.map g)) := by
  induction as with
  | nil => simp [Reads, Text.join]
  | cons a rest ih =>
      obtain ⟨ha, hrest⟩ := List.forall_mem_cons.mp h
      cases rest with
      | nil => simpa [Text.join] using ha
      | cons b rest =>
          have hjoined := ha.behind (ih hrest) (.inl rfl)
          simpa [Text.join_cons, List.intercalate_cons_cons] using hjoined

theorem pieces_enclosed {opening closing : Char}
    (h : (opening, closing) ∈ [('(', ')'), ('\x7b', '\x7d')]) {s : String} {ps : List Piece}
    (hs : Reads s ps) : pieces .between (opening :: (s.toList ++ [closing])) =
      some (.mark opening :: (ps ++ [.mark closing])) := by
  simp only [List.mem_cons, Prod.mk.injEq, List.not_mem_nil, or_false] at h
  rcases h with ⟨rfl, rfl⟩ | ⟨rfl, rfl⟩
  · have hinner := hs [')'] (by decide)
    simp [pieces, marks, hinner]
  · have hinner := hs ['\x7d'] (by decide)
    simp [pieces, marks, hinner]

theorem Reads.pieces_eq {s : String} {ps : List Piece} (h : Reads s ps) :
    pieces .between s.toList = some ps := by
  simpa [pieces] using h [] (by simp)

theorem read_text {s : String} (plain : Plain s) : read? (Text.sourceQuoted s) = some (.text s) := by
  rw [read?, (reads_quoted plain).pieces_eq]
  rfl

theorem tupleTexts_listed (ss : List String) :
    tupleTexts ([.mark ','].intercalate (ss.map fun s => [.text s]) ++ [.mark ')']) = some ss := by
  induction ss with
  | nil => rfl
  | cons s rest ih =>
      cases rest with
      | nil => rfl
      | cons t rest =>
          rw [List.map_cons] at ih
          rw [List.map_cons, List.map_cons, List.intercalate_cons_cons, List.append_assoc,
            List.append_assoc, List.singleton_append, List.singleton_append, tupleTexts, ih]
          rfl

theorem read_tuple {ss : List String} (plain : ∀ s ∈ ss, Plain s) :
    read? (textTuple ss) = some (.tuple ss) := by
  have hquoted : ∀ s ∈ ss, Reads (Text.sourceQuoted s) [.text s] :=
    fun s hs => reads_quoted (plain s hs)
  match ss with
  | [s] =>
      have hcomma : Reads (Text.sourceQuoted s ++ ",") [.text s, .mark ','] := by
        intro rest hrest
        have hs := hquoted s (List.mem_singleton_self s) (',' :: rest) (by simp)
        simpa [pieces, marks, Function.comp_def] using hs
      have hchars : (textTuple [s]).toList = '(' :: ((Text.sourceQuoted s ++ ",").toList ++ [')']) := by
        simp [textTuple]
      rw [read?, hchars, pieces_enclosed (by simp) hcomma]
      rfl
  | [] => decide +kernel
  | s :: t :: rest =>
      have hlisted := tupleTexts_listed (s :: t :: rest)
      have hchars : (textTuple (s :: t :: rest)).toList =
          '(' :: ((Text.join ", " ((s :: t :: rest).map Text.sourceQuoted)).toList ++ [')']) := by
        simp [textTuple]
      rw [read?, hchars, pieces_enclosed (by simp) (reads_join hquoted), Option.bind_some]
      rw [List.map_cons, List.map_cons, List.intercalate_cons_cons] at hlisted ⊢
      exact congrArg (Option.map Datum.tuple) hlisted

theorem mappingEntries_listed (es : List (String × String)) :
    mappingEntries ([.mark ','].intercalate (es.map fun e => [.text e.1, .mark ':', .text e.2])
      ++ [.mark '\x7d']) = some es := by
  induction es with
  | nil => rfl
  | cons e rest ih =>
      cases rest with
      | nil => rfl
      | cons e' rest =>
          rw [List.map_cons] at ih
          rw [List.map_cons, List.map_cons, List.intercalate_cons_cons, List.append_assoc,
            List.append_assoc]
          exact congrArg (Option.map (e :: ·)) ih

theorem putEntry_of_notMem {key value : String} {es : List (String × String)}
    (h : key ∉ es.map Prod.fst) : putEntry key value es = es ++ [(key, value)] := by
  induction es with
  | nil => rfl
  | cons e rest ih =>
      rw [List.map_cons, List.mem_cons, not_or] at h
      rw [putEntry, if_neg (by simpa using Ne.symm h.1), ih h.2, List.cons_append]

theorem foldl_putEntry (acc : List (String × String)) {es : List (String × String)}
    (h : ((acc ++ es).map Prod.fst).Nodup) : es.foldl (fun acc e => putEntry e.1 e.2 acc) acc = acc ++ es := by
  induction es generalizing acc with
  | nil => simp
  | cons e rest ih =>
      have hfresh : e.1 ∉ acc.map Prod.fst := by
        rw [List.map_append, List.nodup_append'] at h
        exact fun hmem => h.2.2 hmem (by simp)
      rw [List.foldl_cons, putEntry_of_notMem hfresh, ih _ (by simpa using h), List.append_assoc,
        List.singleton_append]

theorem mappingOf_of_nodup {es : List (String × String)} (h : (es.map Prod.fst).Nodup) :
    mappingOf es = es :=
  foldl_putEntry [] h

theorem read_mapping {es : List (String × String)} (plain : ∀ e ∈ es, Plain e.1 ∧ Plain e.2)
    (distinct : (es.map Prod.fst).Nodup) :
    read? (Literal.mappingText es) = some (.mapping es) := by
  have hentries : ∀ e ∈ es, Reads (Text.sourceQuoted e.1 ++ ": " ++ Text.sourceQuoted e.2)
      [.text e.1, .mark ':', .text e.2] :=
    fun e he => (reads_quoted (plain e he).1).behind (reads_quoted (plain e he).2) (.inr rfl)
  have hchars : (Literal.mappingText es).toList = '\x7b' :: ((Text.join ", " (es.map fun e =>
      Text.sourceQuoted e.1 ++ ": " ++ Text.sourceQuoted e.2)).toList ++ ['\x7d']) := by
    simp [Literal.mappingText]
  rw [read?, hchars, pieces_enclosed (by simp) (reads_join hentries), Option.bind_some, datum?,
    mappingEntries_listed, Option.map_some, mappingOf_of_nodup distinct]

theorem cut_apart {p : Char → Bool} {cs : List Char} (h : ∀ c ∈ cs, p c = true) {d : Char}
    (hd : p d = false) (rest : List Char) :
    (cs ++ d :: rest).takeWhile p = cs ∧ (cs ++ d :: rest).dropWhile p = d :: rest := by
  rw [List.takeWhile_append_of_pos h, List.dropWhile_append_of_pos h]
  simp [hd]

theorem readAssignment_eq {name type : String} (hname : Text.IsName name)
    (htype : ∀ c ∈ type.toList, isTypeChar c = true) (expression : String) :
    readAssignment (s!"{name}: {type} = " ++ expression) = (read? expression).map (name, ·) := by
  have hchars : (s!"{name}: {type} = " ++ expression).toList =
      name.toList ++ ':' :: ((' ' :: type.toList ++ [' ']) ++ '=' :: ' ' :: expression.toList) := by
    simp [toString]
  have hspaced : ∀ c ∈ ' ' :: type.toList ++ [' '], isTypeChar c = true := by
    simp only [List.cons_append, List.forall_mem_cons, List.forall_mem_append]
    exact ⟨by decide, htype, by decide, by simp⟩
  obtain ⟨hfirst, hbehind⟩ := cut_apart hname.chars (d := ':') (by decide)
    ((' ' :: type.toList ++ [' ']) ++ '=' :: ' ' :: expression.toList)
  have hvalue := (cut_apart hspaced (d := '=') (by decide) (' ' :: expression.toList)).2
  have hblank : pieces .between (' ' :: expression.toList) = pieces .between expression.toList := by
    simp [pieces]
  unfold readAssignment
  rw [hchars, hfirst, hbehind]
  simp only [hvalue, hblank, String.ofList_toList, read?]

theorem breaksLiteral_of_between {first last c : Char} (low : 32 ≤ first.toNat) (high : last.toNat < 127)
    (h : (first ≤ c && c ≤ last) = true) : breaksLiteral c = false := by
  simp only [Bool.and_eq_true, decide_eq_true_eq, Char.le_def, UInt32.le_iff_toNat_le] at h
  exact breaksLiteral_of_printable (low.trans h.1) (h.2.trans_lt high)

theorem breaksLiteral_of_hexValue {c : Char} (h : (Text.hexValue? c).isSome = true) :
    breaksLiteral c = false := by
  unfold Text.hexValue? at h
  split at h
  · next hdigit => exact breaksLiteral_of_between (by decide) (by decide) hdigit
  · split at h
    · next hlower => exact breaksLiteral_of_between (by decide) (by decide) hlower
    · split at h
      · next hupper => exact breaksLiteral_of_between (by decide) (by decide) hupper
      · cases h

theorem hexValue_of_foldlM {cs : List Char} {start n : Nat}
    (h : cs.foldlM (fun n c => (Text.hexValue? c).map (16 * n + ·)) start = some n) :
    ∀ c ∈ cs, (Text.hexValue? c).isSome = true := by
  induction cs generalizing start with
  | nil => simp
  | cons c rest ih =>
      obtain ⟨next, hnext, hrest⟩ := Option.bind_eq_some_iff.mp h
      obtain ⟨value, hvalue, -⟩ := Option.map_eq_some_iff.mp hnext
      exact List.forall_mem_cons.mpr ⟨hvalue ▸ rfl, ih hrest⟩

theorem plain_of_byNumber {c : Char} (hc : breaksLiteral c = false) {width used : Nat}
    {rest meant : List Char} (h : byNumber width rest = some (meant, used)) :
    ∀ d ∈ (c :: rest).take used, breaksLiteral d = false := by
  unfold byNumber at h
  split at h
  · cases h
  · obtain ⟨d, hd, hused⟩ := Option.map_eq_some_iff.mp h
    obtain ⟨n, hn, -⟩ := Option.bind_eq_some_iff.mp hd
    cases hused
    rw [List.take_succ_cons, List.forall_mem_cons]
    exact ⟨hc, fun d hd => breaksLiteral_of_hexValue (hexValue_of_foldlM hn d hd)⟩

theorem plain_of_escaped {cs meant : List Char} {used : Nat} (h : escaped cs = some (meant, used)) :
    ∀ c ∈ cs.take used, breaksLiteral c = false := by
  cases cs with
  | nil => cases h
  | cons c rest =>
      rw [escaped] at h
      split at h
      · next d hd =>
          have hkeys : ∀ e ∈ escapes, breaksLiteral e.1 = false := by decide
          obtain ⟨before, after, hescapes, -⟩ := List.lookup_eq_some_iff.mp hd
          cases h
          simpa using hkeys (c, d) (by simp [hescapes])
      · next width _ hwidth =>
          have hkeys : ∀ e ∈ widths, breaksLiteral e.1 = false := by decide
          obtain ⟨before, after, hwidths, -⟩ := List.lookup_eq_some_iff.mp hwidth
          exact plain_of_byNumber (hkeys (c, width) (by simp [hwidths])) h
      · extract_lets digits at h
        split at h
        · cases h
          have hprefix : digits <+: c :: rest := (List.takeWhile_prefix _).trans (List.take_prefix _ _)
          rw [← List.prefix_iff_eq_take.mp hprefix]
          intro d hd
          have hoctal : isOctal d = true := List.mem_takeWhile_imp hd
          exact breaksLiteral_of_between (by decide : 32 ≤ '0'.toNat) (by decide : '7'.toNat < 127) hoctal
        · split at h
          · cases h
          · next hother =>
              rw [Bool.or_eq_true, not_or] at hother
              cases h
              simpa using hother.2

def Reading.ahead : Reading → Nat
  | .between => 0
  | .within _ ahead => ahead

theorem plain_of_pieces {r : Reading} {cs : List Char} {ps : List Piece} (h : pieces r cs = some ps)
    (ahead : ∀ c ∈ cs.take r.ahead, breaksLiteral c = false) :
    ∀ c ∈ cs, breaksLiteral c = false := by
  -- An escape is read before its characters are passed over, so it answers for those ahead.
  induction cs generalizing r ps with
  | nil => simp
  | cons c rest ih =>
      have hquote : breaksLiteral '"' = false := by decide
      have hmarks : ∀ c ∈ marks, breaksLiteral c = false := by
        simpa using (by decide : marks.all (!breaksLiteral ·) = true)
      rw [List.forall_mem_cons]
      match r with
      | .between =>
          rw [pieces.eq_5] at h
          split at h
          · next hc =>
              split at h
              · cases h
              · exact ⟨beq_iff_eq.mp hc ▸ hquote, ih h (by simp [Reading.ahead])⟩
          · split at h
            · next hc => exact ⟨beq_iff_eq.mp hc ▸ by decide, ih h (by simp [Reading.ahead])⟩
            · split at h
              · next hc =>
                  obtain ⟨more, hmore, -⟩ := Option.map_eq_some_iff.mp h
                  exact ⟨hmarks c (List.contains_iff_mem.mp hc), ih hmore (by simp [Reading.ahead])⟩
              · cases h
      | .within cs 0 =>
          rw [pieces.eq_4] at h
          split at h
          · next hc =>
              obtain ⟨more, hmore, -⟩ := Option.map_eq_some_iff.mp h
              exact ⟨beq_iff_eq.mp hc ▸ hquote, ih hmore (by simp [Reading.ahead])⟩
          · split at h
            · next hc =>
                obtain ⟨⟨meant, used⟩, hescaped, hmore⟩ := Option.bind_eq_some_iff.mp h
                exact ⟨beq_iff_eq.mp hc ▸ by decide, ih hmore (plain_of_escaped hescaped)⟩
            · split at h
              · cases h
              · next hc => exact ⟨by simpa using hc, ih h (by simp [Reading.ahead])⟩
      | .within cs (n + 1) =>
          rw [Reading.ahead, List.take_succ_cons, List.forall_mem_cons] at ahead
          exact ⟨ahead.1, ih h ahead.2⟩

theorem plain_of_between {s : String} {ps : List Piece} (h : pieces .between s.toList = some ps) :
    Plain s :=
  plain_of_pieces h (by simp [Reading.ahead])

theorem plain_of_read {expression : String} {d : Datum} (h : read? expression = some d) :
    Plain expression := by
  obtain ⟨ps, hps, -⟩ := Option.bind_eq_some_iff.mp h
  exact plain_of_between hps

theorem plain_of_sourceQuoted {s : String} (h : Plain (Text.sourceQuoted s)) : Plain s := by
  intro c hc
  refine h c ?_
  have hself : c ∈ Text.sourceChar c := by
    unfold Text.sourceChar
    split <;> simp
  simp only [Text.sourceQuoted, String.toList_ofList, List.mem_append, List.mem_cons, List.mem_flatMap]
  exact .inl (.inr ⟨c, hc, hself⟩)

/-- A quoted text is one literal that is read as the text, unless a character breaks it. -/
theorem pieces_sourceQuoted (s : String) : pieces .between (Text.sourceQuoted s).toList =
    if Plain s then some [.text s] else none := by
  split
  · next plain => exact (reads_quoted plain).pieces_eq
  · next broken =>
      rw [Option.eq_none_iff_forall_ne_some]
      exact fun ps hps => broken (plain_of_sourceQuoted (plain_of_between hps))

namespace Datum

def source : Datum → String
  | .text s => Text.sourceQuoted s
  | .tuple ss => textTuple ss
  | .mapping es => Literal.mappingText es

def literal : Datum → Literal
  | .text s => .text s
  | .tuple ss => .tuple ss
  | .mapping es => .mapping es

/-- The type that a constant is given. -/
def typeName : Datum → String
  | .text _ => "str"
  | .tuple _ => "tuple"
  | .mapping _ => "Dict[str, str]"

def texts : Datum → List String
  | .text s => [s]
  | .tuple ss => ss
  | .mapping es => es.flatMap fun e => [e.1, e.2]

/-- No key stands twice in a mapping. -/
def Distinct : Datum → Prop
  | .mapping es => (es.map Prod.fst).Nodup
  | _ => True

variable {d : Datum}

theorem read_of_plain (distinct : d.Distinct) (plain : ∀ s ∈ d.texts, Plain s) :
    read? d.source = some d := by
  cases d with
  | text s => exact read_text (plain s (List.mem_singleton_self s))
  | tuple ss => exact read_tuple plain
  | mapping es =>
      refine read_mapping (fun e he => ?_) distinct
      have hboth : ∀ s ∈ [e.1, e.2], Plain s :=
        fun s hs => plain s (List.mem_flatMap.mpr ⟨e, he, hs⟩)
      simpa using hboth

theorem plain_of_source (h : Plain d.source) : ∀ s ∈ d.texts, Plain s := by
  cases d with
  | text s => exact fun s' hs' => List.mem_singleton.mp hs' ▸ plain_of_sourceQuoted h
  | tuple ss =>
      intro s hs
      apply plain_of_sourceQuoted
      have htuple : Plain (textTuple ss) := h
      unfold textTuple at htuple
      split at htuple
      · rw [List.mem_singleton.mp hs]
        exact (Text.each_append.mp (Text.each_append.mp htuple).1).2
      · exact Text.each_of_join (Text.each_append.mp (Text.each_append.mp htuple).1).2 _
          (List.mem_map_of_mem hs)
  | mapping es =>
      intro s hs
      apply plain_of_sourceQuoted
      obtain ⟨e, he, hs⟩ := List.mem_flatMap.mp hs
      have hentry := Text.each_of_join (Text.each_append.mp (Text.each_append.mp h).1).2 _
        (List.mem_map_of_mem he)
      have hboth := Text.each_append.mp hentry
      simp only [List.mem_cons, List.not_mem_nil, or_false] at hs
      rcases hs with rfl | rfl
      · exact (Text.each_append.mp hboth.1).1
      · exact hboth.2

/-- The source of a datum is read as that datum, unless a character of its texts breaks a literal. -/
theorem read_source (distinct : d.Distinct) :
    read? d.source = if ∀ s ∈ d.texts, Plain s then some d else none := by
  split
  · next plain => exact read_of_plain distinct plain
  · next broken =>
      rw [Option.eq_none_iff_forall_ne_some]
      exact fun other hother => broken (plain_of_source (plain_of_read hother))

theorem isTypeChar_typeName (d : Datum) : ∀ c ∈ d.typeName.toList, isTypeChar c = true := by
  have hall : ∀ type ∈ ["str", "tuple", "Dict[str, str]"], type.toList.all isTypeChar = true := by
    decide +kernel
  apply List.all_eq_true.mp
  apply hall
  cases d <;> simp [typeName]

end Datum

def constantLine (constant : String × Datum) : String :=
  s!"{constant.1}: {constant.2.typeName} = " ++ constant.2.source

variable {constants : List (String × Datum)}

/-- Lines that set constants are read as what they set, unless a character breaks a literal. -/
theorem read_constantLines (names : ∀ e ∈ constants, Text.IsName e.1)
    (distinct : ∀ e ∈ constants, e.2.Distinct) : (constants.map constantLine).mapM readAssignment =
      if ∀ e ∈ constants, ∀ s ∈ e.2.texts, Plain s then some constants else none := by
  induction constants with
  | nil => rfl
  | cons e rest ih =>
      obtain ⟨hname, hnames⟩ := List.forall_mem_cons.mp names
      obtain ⟨hdistinct, hdistincts⟩ := List.forall_mem_cons.mp distinct
      rw [List.map_cons, List.mapM_cons, constantLine,
        readAssignment_eq hname e.2.isTypeChar_typeName, Datum.read_source hdistinct,
        ih hnames hdistincts]
      simp only [List.forall_mem_cons]
      by_cases hfirst : ∀ s ∈ e.2.texts, Plain s
      · rw [if_pos hfirst]
        by_cases hrest : ∀ e ∈ rest, ∀ s ∈ e.2.texts, Plain s
        · rw [if_pos hrest, if_pos ⟨hfirst, hrest⟩]
          rfl
        · rw [if_neg hrest, if_neg fun h => hrest h.2]
          rfl
      · have hnot : ¬ ((∀ s ∈ e.2.texts, Plain s) ∧ ∀ e ∈ rest, ∀ s ∈ e.2.texts, Plain s) :=
          fun h => hfirst h.1
        rw [if_neg hfirst, if_neg hnot]
        rfl

theorem breaksLiteral_of_isTypeChar {c : Char} (h : isTypeChar c = true) : breaksLiteral c = false := by
  rw [isTypeChar, Bool.or_eq_true] at h
  rcases h with hname | hmark
  · exact breaksLiteral_of_isNameRest hname
  · simp only [List.contains_iff_mem, List.mem_cons, List.not_mem_nil, or_false] at hmark
    rcases hmark with rfl | rfl | rfl | rfl <;> decide

theorem plain_constantLine {e : String × Datum} (name : Text.IsName e.1) (distinct : e.2.Distinct)
    (plain : ∀ s ∈ e.2.texts, Plain s) : Plain (constantLine e) := by
  have hname : Plain e.1 := fun c hc => breaksLiteral_of_isNameRest (name.chars c hc)
  have htype : Plain e.2.typeName :=
    fun c hc => breaksLiteral_of_isTypeChar (e.2.isTypeChar_typeName c hc)
  have hsource : Plain e.2.source := plain_of_read (Datum.read_of_plain distinct plain)
  have hbetween : Plain ": " ∧ Plain " = " := by decide
  exact Text.each_append.mpr ⟨Text.each_append.mpr ⟨Text.each_append.mpr ⟨Text.each_append.mpr
    ⟨hname, hbetween.1⟩, htype⟩, hbetween.2⟩, hsource⟩

/-- Behind the last character that is no line break, a text that is ended goes on with one. -/
theorem endLine_append (front : String) {c : Char} (hc : c ≠ '\n') (after : String) :
    ∃ rest, endLine (front ++ String.singleton c ++ ("\n" ++ after)) =
      front ++ String.singleton c ++ "\n" ++ rest := by
  have hkept := Text.rdropWhile_append (p := (· == '\n')) (by simpa using hc) front.toList
    ('\n' :: after.toList)
  have hprefix := List.rdropWhile_prefix (p := (· == '\n')) ('\n' :: after.toList)
  have hends : ∃ rest, ('\n' :: after.toList).rdropWhile (· == '\n') ++ ['\n'] = '\n' :: rest := by
    rcases List.prefix_cons_iff.mp hprefix with hnone | ⟨kept, hsome, -⟩
    · exact ⟨[], by rw [hnone]; rfl⟩
    · exact ⟨kept ++ ['\n'], by rw [hsome]; rfl⟩
  obtain ⟨rest, hrest⟩ := hends
  refine ⟨String.ofList rest, String.toList_inj.mp ?_⟩
  have hchars : (endLine (front ++ String.singleton c ++ ("\n" ++ after))).toList =
      (front.toList ++ [c] ++ '\n' :: after.toList).rdropWhile (· == '\n') ++ ['\n'] := by
    simp [endLine, List.rdropWhile]
  rw [hchars, hkept, List.append_assoc, hrest]
  simp

/-- Lines that stand within a text are lines of it, also when line breaks at its end are left out. -/
theorem infix_split_endLine {before block after : List String}
    (nonempty : before ≠ [] ∧ block ≠ [] ∧ after ≠ []) (single : ∀ l ∈ block, '\n' ∉ l.toList)
    (full : ∀ l ∈ block, l ≠ "") :
    block <:+: Text.split '\n' (endLine (Text.join "\n" (before ++ block ++ after))) := by
  obtain ⟨hbefore, hblock, hafter⟩ := nonempty
  obtain ⟨front, c, hend, l, hl, hc⟩ := Text.join_ends "\n" hblock full
  have hne : c ≠ '\n' := by
    rintro rfl
    exact single l hl hc
  have htext : Text.join "\n" (before ++ block ++ after) = Text.join "\n" before ++ "\n"
      ++ front ++ String.singleton c ++ ("\n" ++ Text.join "\n" after) := by
    have hjoined := String.intercalate_append_of_ne_nil (s := "\n")
      (List.append_ne_nil_of_left_ne_nil hbefore block) hafter
    rw [String.intercalate_append_of_ne_nil hbefore hblock] at hjoined
    rw [Text.join, hjoined, ← Text.join, ← Text.join, ← Text.join, hend]
    simp only [String.append_assoc]
  obtain ⟨rest, hrest⟩ := endLine_append _ hne (Text.join "\n" after)
  have hlines : endLine (Text.join "\n" (before ++ block ++ after)) = Text.join "\n" before
      ++ String.singleton '\n' ++ Text.join "\n" block ++ String.singleton '\n' ++ rest := by
    rw [htext, hrest, hend]
    simp only [String.append_assoc]
    rfl
  have hparts : Text.split '\n' (Text.join "\n" block) = block := Text.split_join single hblock
  rw [hlines, Text.split_append, Text.split_append, hparts]
  exact ⟨_, _, rfl⟩

end TableLoom.Code
