import Mathlib.Data.List.Chain
import TableLoom.Query.Piece

/-!
A statement as it reads from left to right: characters, and values that wait for their placeholders.
Numbering writes the placeholders in, and reading the text finds the same ones again.
-/

namespace TableLoom.Query

/-- A character of a statement, or the place of a value. -/
inductive Mark where
  | char (c : Char)
  | value (v : Value)

namespace Mark

def isDollar : Mark → Bool
  | char c => c == '$'
  | value _ => false

def isDigit : Mark → Bool
  | char c => c.isDigit
  | value _ => false

def isValue : Mark → Bool
  | char _ => false
  | value _ => true

end Mark

/-- Characters alone. -/
def chars (cs : List Char) : List Mark :=
  cs.map .char

@[simp] theorem chars_nil : chars [] = [] := rfl

@[simp] theorem chars_cons (c : Char) (cs : List Char) : chars (c :: cs) = .char c :: chars cs := rfl

@[simp] theorem chars_append (cs ds : List Char) : chars (cs ++ ds) = chars cs ++ chars ds :=
  List.map_append

def Piece.marks : Piece → List Mark
  | .text s => chars s.toList
  | .slot v => [.value v]

def marks (ps : List Piece) : List Mark :=
  ps.flatMap Piece.marks

@[simp] theorem marks_nil : marks [] = [] := rfl

@[simp] theorem marks_text (s : String) (ps : List Piece) :
    marks (.text s :: ps) = chars s.toList ++ marks ps :=
  List.flatMap_cons

@[simp] theorem marks_slot (v : Value) (ps : List Piece) :
    marks (.slot v :: ps) = .value v :: marks ps :=
  List.flatMap_cons

@[simp] theorem marks_append (ps qs : List Piece) : marks (ps ++ qs) = marks ps ++ marks qs :=
  List.flatMap_append

/-- The values among marks, from left to right. -/
def valuesIn : List Mark → List Value
  | [] => []
  | .char _ :: rest => valuesIn rest
  | .value v :: rest => v :: valuesIn rest

/-- The text in which the values are replaced by placeholders, numbered from `n` on. -/
def numbered (n : Nat) : List Mark → List Char
  | [] => []
  | .char c :: rest => c :: numbered n rest
  | .value _ :: rest => (Statement.placeholder n).toList ++ numbered (n + 1) rest

@[simp] theorem valuesIn_chars (cs : List Char) : valuesIn (chars cs) = [] := by
  induction cs with
  | nil => rfl
  | cons c cs ih => exact ih

@[simp] theorem valuesIn_append (xs ys : List Mark) :
    valuesIn (xs ++ ys) = valuesIn xs ++ valuesIn ys := by
  induction xs with
  | nil => rfl
  | cons x xs ih =>
      cases x with
      | char c => exact ih
      | value v => exact congrArg (v :: ·) ih

@[simp] theorem numbered_chars (n : Nat) (cs : List Char) : numbered n (chars cs) = cs := by
  induction cs with
  | nil => rfl
  | cons c cs ih => exact congrArg (c :: ·) ih

theorem numbered_append (n : Nat) (xs ys : List Mark) :
    numbered n (xs ++ ys) = numbered n xs ++ numbered (n + (valuesIn xs).length) ys := by
  induction xs generalizing n with
  | nil => rfl
  | cons x xs ih =>
      cases x with
      | char c => exact congrArg (c :: ·) (ih n)
      | value v =>
          simp only [List.cons_append, numbered, valuesIn, List.length_cons, ih (n + 1),
            List.append_assoc]
          rw [Nat.add_right_comm, Nat.add_assoc]

theorem values_eq (ps : List Piece) : values ps = valuesIn (marks ps) := by
  induction ps with
  | nil => rfl
  | cons p ps ih =>
      cases p with
      | text s => simp [values, ih]
      | slot v => simp [values, valuesIn, ih]

theorem toList_sqlFrom (n : Nat) (ps : List Piece) :
    (sqlFrom n ps).toList = numbered n (marks ps) := by
  induction ps generalizing n with
  | nil => rfl
  | cons p ps ih =>
      cases p with
      | text s => simp [sqlFrom, ih, numbered_append]
      | slot v => simp [sqlFrom, ih, numbered]

/-- The mark of a value splits the text at its placeholder. -/
theorem numbered_split {ms : List Mark} {i : Nat} (h : i < (valuesIn ms).length) (n : Nat) :
    ∃ before after, ms = before ++ .value (valuesIn ms)[i] :: after ∧
      (valuesIn before).length = i ∧
      numbered n ms =
        numbered n before ++ (Statement.placeholder (n + i)).toList ++ numbered (n + i + 1) after := by
  induction ms generalizing i n with
  | nil => exact absurd h (Nat.not_lt_zero i)
  | cons m ms ih =>
      cases m with
      | char c =>
          obtain ⟨before, after, heq, hcount, htext⟩ := ih h n
          refine ⟨.char c :: before, after, congrArg (_ :: ·) heq, hcount, ?_⟩
          exact congrArg (c :: ·) htext
      | value v =>
          cases i with
          | zero => exact ⟨[], ms, rfl, rfl, rfl⟩
          | succ i =>
              obtain ⟨before, after, heq, hcount, htext⟩ := ih (Nat.lt_of_succ_lt_succ h) (n + 1)
              refine ⟨.value v :: before, after, congrArg (_ :: ·) heq, congrArg (· + 1) hcount, ?_⟩
              simp only [numbered, htext, List.append_assoc]
              rw [Nat.add_right_comm n 1 i]
              rfl

/-- Marks in which no digit follows a mark of some kind. -/
def Apart (kind : Mark → Bool) (ms : List Mark) : Prop :=
  ms.IsChain fun x y => (kind x && y.isDigit) = false

instance (kind : Mark → Bool) (ms : List Mark) : Decidable (Apart kind ms) :=
  inferInstanceAs (Decidable (List.IsChain _ ms))

/-- No dollar is followed by a digit, so nothing but a placeholder reads as one. -/
abbrev Unnumbered : List Mark → Prop :=
  Apart Mark.isDollar

/-- No value is followed by a digit, so no placeholder reads on into the text behind it. -/
abbrev Separated : List Mark → Prop :=
  Apart Mark.isValue

/-- The placeholders that a text shows, from left to right. -/
def placeholdersIn : List Char → List String
  | [] => []
  | c :: rest =>
    let digits := rest.takeWhile Char.isDigit
    if c == '$' && !digits.isEmpty then String.ofList (c :: digits) :: placeholdersIn rest
    else placeholdersIn rest

theorem placeholdersIn_skip {cs : List Char} (h : ∀ c ∈ cs, c ≠ '$') (rest : List Char) :
    placeholdersIn (cs ++ rest) = placeholdersIn rest := by
  induction cs with
  | nil => rfl
  | cons c cs ih =>
      have hc : (c == '$') = false := by simpa using h c List.mem_cons_self
      rw [List.cons_append, placeholdersIn]
      simp only [hc, Bool.false_and, Bool.false_eq_true, ↓reduceIte]
      exact ih fun d hd => h d (List.mem_cons_of_mem c hd)

theorem toList_placeholder (n : Nat) :
    (Statement.placeholder n).toList = '$' :: Nat.toDigits 10 n := by
  have h : Statement.placeholder n = "$" ++ Nat.repr n := rfl
  simp [h, Nat.repr]

theorem isDigit_of_mem_number {n : Nat} {c : Char} (h : c ∈ Nat.toDigits 10 n) :
    c.isDigit = true :=
  Nat.isDigit_of_mem_toDigits (by decide) (by decide) h

/-- Text that starts without a digit. -/
def StartsApart (cs : List Char) : Prop :=
  ∀ c ∈ cs.head?, c.isDigit = false

theorem takeWhile_digits {cs : List Char} (h : StartsApart cs) : cs.takeWhile Char.isDigit = [] := by
  cases cs with
  | nil => rfl
  | cons c cs =>
      have hc : c.isDigit = false := h c rfl
      rw [List.takeWhile_cons_of_neg (by simp [hc])]

theorem startsApart_numbered {ms : List Mark} (h : ∀ m ∈ ms.head?, m.isDigit = false) (n : Nat) :
    StartsApart (numbered n ms) := by
  cases ms with
  | nil => simp [numbered, StartsApart]
  | cons m ms =>
      cases m with
      | char c =>
          have hc : c.isDigit = false := h (.char c) rfl
          simpa [numbered, StartsApart] using hc
      | value v =>
          rw [numbered, toList_placeholder]
          simp [StartsApart]

/-- A numbered text shows the placeholders that numbering wrote, in order, and no others. -/
theorem placeholdersIn_numbered {ms : List Mark} (unnumbered : Unnumbered ms)
    (separated : Separated ms) (n : Nat) :
    placeholdersIn (numbered n ms) =
      (List.range' n (valuesIn ms).length).map Statement.placeholder := by
  induction ms generalizing n with
  | nil => rfl
  | cons m ms ih =>
      have hrest := ih (List.IsChain.tail unnumbered) (List.IsChain.tail separated)
      have happart : m.isDollar = true ∨ m.isValue = true →
          ∀ m' ∈ ms.head?, m'.isDigit = false := by
        intro hm m' hm'
        cases ms with
        | nil => cases hm'
        | cons m'' ms =>
            obtain rfl := Option.some.inj hm'
            have hunnumbered := (List.isChain_cons_cons.mp unnumbered).1
            have hseparated := (List.isChain_cons_cons.mp separated).1
            rcases hm with hm | hm
            · simpa [hm] using hunnumbered
            · simpa [hm] using hseparated
      cases m with
      | char c =>
          rw [numbered, placeholdersIn, valuesIn]
          by_cases hc : c = '$'
          · have hstart := startsApart_numbered (happart (.inl (by simp [Mark.isDollar, hc]))) n
            simp [takeWhile_digits hstart, hrest n]
          · simp [hc, hrest n]
      | value v =>
          have hstart := startsApart_numbered (happart (.inr rfl)) (n + 1)
          have hdigits : (Nat.toDigits 10 n ++ numbered (n + 1) ms).takeWhile Char.isDigit =
              Nat.toDigits 10 n := by
            rw [List.takeWhile_append_of_pos fun c hc => isDigit_of_mem_number hc,
              takeWhile_digits hstart, List.append_nil]
          have hplain : ∀ c ∈ Nat.toDigits 10 n, c ≠ '$' := by
            rintro c hc rfl
            exact absurd (isDigit_of_mem_number hc) (by decide)
          have hsome : (Nat.toDigits 10 n).isEmpty = false := by
            simp [Nat.toDigits_ne_nil]
          rw [numbered, toList_placeholder, List.cons_append, placeholdersIn, hdigits, hsome,
            placeholdersIn_skip hplain, hrest (n + 1), valuesIn, List.length_cons, List.range'_succ,
            List.map_cons, ← toList_placeholder]
          simp

end TableLoom.Query
