import TableLoom.Json.Reader

/-!
What a text means in JSON, apart from any way of reading it: the written forms of texts, numbers,
lists and maps, with the depth to which the lists and maps hold one another and with whether a whole
number has too many digits to be read. Blanks may stand around every value. Of several equal keys the
last gives the value and the first the place.
-/

namespace TableLoom.Json

/-- Blanks, perhaps none. -/
def Blanks (bs : List Char) : Prop :=
  ∀ b ∈ bs, isBlank b = true

theorem blanks_nil : Blanks [] := by
  simp [Blanks]

/-! ### Texts -/

/-- The escape of the second half of a surrogate pair comes first. -/
def LowFirst (cs : List Char) : Prop :=
  ∃ a b c d rest n, cs = '\\' :: 'u' :: a :: b :: c :: d :: rest ∧
    Text.ofHex? [a, b, c, d] = some n ∧ isLowSurrogate n = true

/-- What stands between the quotes of a text, and the characters that it spells. -/
inductive Spelled : List Char → List Char → Prop
  | done : Spelled [] []
  | plain {c : Char} {cs s : List Char} (printable : 0x20 ≤ c.toNat) (no_quote : c ≠ '"')
      (no_escape : c ≠ '\\') (rest : Spelled cs s) : Spelled (c :: cs) (c :: s)
  | letter {e c : Char} {cs s : List Char} (escape : escape? e = some c) (rest : Spelled cs s) :
      Spelled ('\\' :: e :: cs) (c :: s)
  | code {a b c d : Char} {n : Nat} {cs s : List Char} (hex : Text.ofHex? [a, b, c, d] = some n)
      (alone : isHighSurrogate n = true → ¬ LowFirst cs) (rest : Spelled cs s) :
      Spelled ('\\' :: 'u' :: a :: b :: c :: d :: cs) (charOfCode n :: s)
  | pair {a b c d e f g h : Char} {n m : Nat} {cs s : List Char}
      (hex : Text.ofHex? [a, b, c, d] = some n) (high : isHighSurrogate n = true)
      (hex' : Text.ofHex? [e, f, g, h] = some m) (low : isLowSurrogate m = true)
      (rest : Spelled cs s) :
      Spelled ('\\' :: 'u' :: a :: b :: c :: d :: '\\' :: 'u' :: e :: f :: g :: h :: cs)
        (joinSurrogates n m :: s)

/-- A character that stands for itself between quotes. -/
def isPlain (c : Char) : Bool :=
  0x20 ≤ c.toNat && c != '"' && c != '\\'

theorem Spelled.plainly {s : List Char} (h : s.all isPlain = true) : Spelled s s := by
  induction s with
  | nil => exact .done
  | cons c s ih =>
    simp only [List.all_cons, isPlain, Bool.and_eq_true, decide_eq_true_eq, bne_iff_ne] at h
    obtain ⟨⟨⟨printable, no_quote⟩, no_escape⟩, hrest⟩ := h
    exact .plain printable no_quote no_escape (ih hrest)

/-! ### Numbers -/

/-- Digits, at least one. -/
def Digits (ds : List Char) : Prop :=
  ds ≠ [] ∧ ∀ d ∈ ds, d.isDigit = true

/-- The digits before the point: a lone zero, or some that begin with another one. -/
def WholePart (ds : List Char) : Prop :=
  ds = ['0'] ∨ Digits ds ∧ ds.head? ≠ some '0'

/-- A point and digits, or nothing. -/
inductive Fraction : List Char → List Char → Prop
  | absent : Fraction [] []
  | present {ds : List Char} (digits : Digits ds) : Fraction ('.' :: ds) ds

/-- A power of ten, or nothing. -/
inductive Power : List Char → Option Int → Prop
  | absent : Power [] none
  | plain {e : Char} {ds : List Char} (mark : e = 'e' ∨ e = 'E') (digits : Digits ds) :
      Power (e :: ds) (some (Decimal.ofDigits ds))
  | plus {e : Char} {ds : List Char} (mark : e = 'e' ∨ e = 'E') (digits : Digits ds) :
      Power (e :: '+' :: ds) (some (Decimal.ofDigits ds))
  | minus {e : Char} {ds : List Char} (mark : e = 'e' ∨ e = 'E') (digits : Digits ds) :
      Power (e :: '-' :: ds) (some (-Decimal.ofDigits ds))

def sign (negative : Bool) : List Char :=
  if negative then ['-'] else []

/-- A number, and whether it is a whole one with more digits than can be read. -/
inductive Number : Bool → List Char → Value → Prop
  | whole (negative : Bool) {ds : List Char} (digits : WholePart ds) :
      Number (Decimal.longest < ds.length) (sign negative ++ ds)
        (.int (if negative then -Decimal.ofDigits ds else Decimal.ofDigits ds))
  | broken (negative : Bool) {ws fcs fs ecs : List Char} {e : Option Int} (digits : WholePart ws)
      (fraction : Fraction fcs fs) (power : Power ecs e) (some_part : fs ≠ [] ∨ e ≠ none) :
      Number false (sign negative ++ (ws ++ (fcs ++ ecs)))
        (.float (if negative then -Decimal.ofParts ws fs (e.getD 0)
          else Decimal.ofParts ws fs (e.getD 0)))

/-! ### Values -/

/-- What some characters are read as: one value, or what stands between the brackets of a list or of a
map. -/
inductive Form where
  | value (v : Value)
  | items (vs : List Value)
  | entries (es : List (String × Value))

/-- Entries under their keys, each put into a map after those before it. -/
def mapOf (es : List (String × Value)) : List (Value × Value) :=
  es.foldl (fun m e => Value.put e.1 e.2 m) []

/-- How deep a form goes, whether a number in it is too long, its characters, and what they mean. -/
inductive Written : Nat → Bool → List Char → Form → Prop
  | word {w : List Char} {v : Value} (known : (w, v) ∈ words) : Written 0 false w (.value v)
  | number {long : Bool} {cs : List Char} {v : Value} (number : Number long cs v) :
      Written 0 long cs (.value v)
  | text {cs s : List Char} (spelled : Spelled cs s) :
      Written 0 false ('"' :: (cs ++ ['"'])) (.value (.text (String.ofList s)))
  | emptyList {bs : List Char} (blanks : Blanks bs) :
      Written 1 false ('[' :: (bs ++ [']'])) (.value (.list []))
  | list {d : Nat} {long : Bool} {cs : List Char} {vs : List Value}
      (items : Written d long cs (.items vs)) :
      Written (d + 1) long ('[' :: (cs ++ [']'])) (.value (.list vs))
  | emptyMap {bs : List Char} (blanks : Blanks bs) :
      Written 1 false ('\x7b' :: (bs ++ ['}'])) (.value (.map []))
  | map {d : Nat} {long : Bool} {cs : List Char} {es : List (String × Value)}
      (entries : Written d long cs (.entries es)) :
      Written (d + 1) long ('\x7b' :: (cs ++ ['}'])) (.value (.map (mapOf es)))
  | lastItem {d : Nat} {long : Bool} {bs cs bs' : List Char} {v : Value} (before : Blanks bs)
      (value : Written d long cs (.value v)) (after : Blanks bs') :
      Written d long (bs ++ (cs ++ bs')) (.items [v])
  | item {d d' : Nat} {long long' : Bool} {bs cs bs' rest : List Char} {v : Value}
      {vs : List Value} (before : Blanks bs) (value : Written d long cs (.value v))
      (after : Blanks bs') (more : Written d' long' rest (.items vs)) :
      Written (max d d') (long || long') (bs ++ (cs ++ (bs' ++ ',' :: rest))) (.items (v :: vs))
  | lastEntry {d : Nat} {long : Bool} {bs ks k bs₁ bs₂ cs bs' : List Char} {v : Value}
      (before : Blanks bs) (key : Spelled ks k) (to_colon : Blanks bs₁) (from_colon : Blanks bs₂)
      (value : Written d long cs (.value v)) (after : Blanks bs') :
      Written d long (bs ++ '"' :: (ks ++ '"' :: (bs₁ ++ ':' :: (bs₂ ++ (cs ++ bs')))))
        (.entries [(String.ofList k, v)])
  | entry {d d' : Nat} {long long' : Bool} {bs ks k bs₁ bs₂ cs bs' rest : List Char} {v : Value}
      {es : List (String × Value)} (before : Blanks bs) (key : Spelled ks k)
      (to_colon : Blanks bs₁) (from_colon : Blanks bs₂) (value : Written d long cs (.value v))
      (after : Blanks bs') (more : Written d' long' rest (.entries es)) :
      Written (max d d') (long || long')
        (bs ++ '"' :: (ks ++ '"' :: (bs₁ ++ ':' :: (bs₂ ++ (cs ++ (bs' ++ ',' :: rest))))))
        (.entries ((String.ofList k, v) :: es))

/-- A whole text that means a value in JSON: the depth of its lists and maps, and whether a number in
it is too long to be read. -/
def Means (s : String) (v : Value) (depth : Nat) (long : Bool) : Prop :=
  ∃ bs cs bs', s.toList = bs ++ (cs ++ bs') ∧ Blanks bs ∧ Blanks bs' ∧
    Written depth long cs (.value v)

end TableLoom.Json
