import TableLoom.Proofs.Json.Written

/-!
Reading finds in a text what the text means, up to a limit: it refuses lists and maps that hold one
another more than `deepest` times, and whole numbers with more than `Decimal.longest` digits.
-/

namespace TableLoom.Json

/-- What reading comes to: the reading given, unless the nesting passes the limit or a number is too
long, and then one of these is the fault. -/
inductive Comes {α : Type} (depth : Nat) (long : Bool) (a : α) : Except Stop α → Prop
  | reads (shallow : depth ≤ deepest) (short : long = false) : Comes depth long a (.ok a)
  | tooDeep (left : Nat) (deep : deepest < depth) : Comes depth long a (.error ⟨.tooDeep, left⟩)
  | tooLong (digits left : Nat) (too_long : long = true) :
      Comes depth long a (.error ⟨.tooLong digits, left⟩)

section

variable {α β : Type} {depth depth' : Nat} {long long' : Bool} {a : α} {b : β} {x : Except Stop α}

theorem Comes.bind {f : α → Except Stop β} (h : Comes depth long a x)
    (hf : Comes depth' long' b (f a)) :
    Comes (max depth depth') (long || long') b (x >>= f) := by
  cases h with
  | reads shallow short =>
    change Comes _ _ _ (f a)
    generalize f a = y at hf
    cases hf with
    | reads shallow' short' =>
      exact .reads (Nat.max_le.mpr ⟨shallow, shallow'⟩) (by simp [short, short'])
    | tooDeep left deep => exact .tooDeep left (Nat.lt_of_lt_of_le deep (Nat.le_max_right _ _))
    | tooLong digits left too_long => exact .tooLong digits left (by simp [too_long])
  | tooDeep left deep => exact .tooDeep left (Nat.lt_of_lt_of_le deep (Nat.le_max_left _ _))
  | tooLong digits left too_long => exact .tooLong digits left (by simp [too_long])

theorem Comes.map {f : α → Except Stop β} (h : Comes depth long a x) (hf : f a = .ok b) :
    Comes depth long b (x >>= f) := by
  cases h with
  | reads shallow short =>
    change Comes _ _ _ (f a)
    rw [hf]
    exact .reads shallow short
  | tooDeep left deep => exact .tooDeep left deep
  | tooLong digits left too_long => exact .tooLong digits left too_long

end

/-! ### Blanks -/

theorem skipBlank_append {bs : List Char} (h : Blanks bs) (cs : List Char) :
    skipBlank (bs ++ cs) = skipBlank cs :=
  List.dropWhile_append_of_pos h

theorem skipBlank_cons {c : Char} (h : isBlank c = false) (cs : List Char) :
    skipBlank (c :: cs) = c :: cs :=
  List.dropWhile_cons_of_neg (by simp [h])

/-- What may stand behind a value. -/
def Ends (r : List Char) : Prop :=
  ∀ c ∈ r.head?, isBlank c = true ∨ c = ',' ∨ c = ']' ∨ c = '}'

theorem ends_append {bs : List Char} (h : Blanks bs) {r : List Char} (hr : Ends r) :
    Ends (bs ++ r) := by
  cases bs with
  | nil => exact hr
  | cons b bs =>
    intro c hc
    obtain rfl : b = c := Option.some.inj hc
    exact .inl (h b List.mem_cons_self)

theorem ends_cons {c : Char} (h : c = ',' ∨ c = ']' ∨ c = '}') (r : List Char) : Ends (c :: r) := by
  intro d hd
  obtain rfl : c = d := Option.some.inj hd
  exact .inr h

theorem Ends.outside {r : List Char} (h : Ends r) {c : Char} (hc : c ∈ r.head?) :
    c.isDigit = false ∧ c ≠ '.' ∧ c ≠ 'e' ∧ c ≠ 'E' := by
  have := h c hc
  simp only [isBlank, Bool.or_eq_true, beq_iff_eq] at this
  obtain (((rfl | rfl) | rfl) | rfl) | rfl | rfl | rfl := this <;> decide

/-! ### Texts -/

theorem Spelled.exists_hex {t s : List Char} (h : Spelled ('\\' :: 'u' :: t) s) :
    ∃ a b c d rest n, t = a :: b :: c :: d :: rest ∧ Text.ofHex? [a, b, c, d] = some n := by
  cases h with
  | plain _ _ no_escape => exact absurd rfl no_escape
  | letter escape => simp [escape?] at escape
  | code hex => exact ⟨_, _, _, _, _, _, rfl, hex⟩
  | pair hex => exact ⟨_, _, _, _, _, _, rfl, hex⟩

/-- A code that no second half follows stands for its own character. -/
theorem pairUp_alone {n : Nat} {cs s : List Char} (h : Spelled cs s)
    (alone : isHighSurrogate n = true → ¬ LowFirst cs) (rest : List Char) :
    pairUp n (cs ++ '"' :: rest) = .ok (charOfCode n, 0) := by
  by_cases hu : ∃ t, cs = '\\' :: 'u' :: t
  · obtain ⟨t, rfl⟩ := hu
    obtain ⟨a, b, c, d, t, m, rfl, hm⟩ := h.exists_hex
    obtain ⟨next, more, hmore⟩ : ∃ next more, t ++ '"' :: rest = next :: more := by
      cases t <;> simp
    have hlow : isHighSurrogate n = true → isLowSurrogate m = false := fun high =>
      Bool.eq_false_iff.mpr fun low => alone high ⟨a, b, c, d, t, m, rfl, hm, low⟩
    simp only [List.cons_append, hmore, pairUp, hm]
    split <;> simp_all
  · unfold pairUp
    split
    · rcases cs with _ | ⟨c, _ | ⟨c', t⟩⟩ <;> simp_all
    · rfl

theorem pairUp_pair {n m : Nat} {e f g h : Char} (high : isHighSurrogate n = true)
    (hex : Text.ofHex? [e, f, g, h] = some m) (low : isLowSurrogate m = true) {rest : List Char}
    (hne : rest ≠ []) :
    pairUp n ('\\' :: 'u' :: e :: f :: g :: h :: rest) = .ok (joinSurrogates n m, 6) := by
  obtain ⟨next, more, rfl⟩ := List.exists_cons_of_ne_nil hne
  simp [pairUp, high, hex, low]

theorem readText_plain {c : Char} (printable : 0x20 ≤ c.toNat) (no_quote : c ≠ '"')
    (no_escape : c ≠ '\\') (start : Nat) (acc rest : List Char) :
    readText start acc (c :: rest) = readText start (c :: acc) rest := by
  rw [readText, if_neg (by omega)]
  all_goals simp_all

theorem readText_letter {e c : Char} (escape : escape? e = some c) (start : Nat)
    (acc rest : List Char) :
    readText start acc ('\\' :: e :: rest) = readText start (c :: acc) rest := by
  have hu : e ≠ 'u' := by
    rintro rfl
    simp [escape?] at escape
  rw [readText, escape]
  all_goals simp_all

theorem readText_code {a b c d x : Char} {n taken : Nat} {rest : List Char}
    (hex : Text.ofHex? [a, b, c, d] = some n) (hne : rest ≠ [])
    (hpair : pairUp n rest = .ok (x, taken)) (start : Nat) (acc : List Char) :
    readText start acc ('\\' :: 'u' :: a :: b :: c :: d :: rest) =
      readText start (x :: acc) (rest.drop taken) := by
  obtain ⟨next, more, rfl⟩ := List.exists_cons_of_ne_nil hne
  rw [readText.eq_def]
  simp only [hex, hpair]

theorem readText_spelled {cs s : List Char} (h : Spelled cs s) (start : Nat)
    (acc rest : List Char) :
    readText start acc (cs ++ '"' :: rest) = .ok (String.ofList (acc.reverse ++ s), rest) := by
  induction h generalizing acc with
  | done => simp [readText]
  | plain printable no_quote no_escape _ ih =>
    rw [List.cons_append, readText_plain printable no_quote no_escape, ih]
    simp
  | letter escape _ ih =>
    rw [List.cons_append, List.cons_append, readText_letter escape, ih]
    simp
  | code hex alone spelled ih =>
    simp only [List.cons_append]
    rw [readText_code hex (by simp) (pairUp_alone spelled alone rest), List.drop_zero, ih]
    simp
  | pair hex high hex' low _ ih =>
    simp only [List.cons_append]
    rw [readText_code hex (by simp) (pairUp_pair high hex' low (by simp))]
    simp [ih]

/-! ### Numbers -/

theorem digits_append {ds r : List Char} (h : ∀ d ∈ ds, d.isDigit = true)
    (hr : ∀ c ∈ r.head?, c.isDigit = false) : Decimal.digits (ds ++ r) = (ds, r) := by
  have hnone : r.takeWhile Char.isDigit = [] ∧ r.dropWhile Char.isDigit = r := by
    cases r with
    | nil => exact ⟨rfl, rfl⟩
    | cons c r => simp [hr c rfl]
  rw [Decimal.digits, List.takeWhile_append_of_pos h, List.dropWhile_append_of_pos h, hnone.1,
    hnone.2, List.append_nil]

theorem whole_append {ws r : List Char} (h : WholePart ws)
    (hr : ∀ c ∈ r.head?, c.isDigit = false) : whole (ws ++ r) = (ws, r) := by
  rcases h with rfl | ⟨⟨hne, hdigits⟩, hzero⟩
  · rfl
  · obtain ⟨d, ds, rfl⟩ := List.exists_cons_of_ne_nil hne
    rw [List.cons_append, whole, ← List.cons_append, digits_append hdigits hr]
    rintro rest heq
    injection heq with heq
    exact hzero (by rw [heq]; rfl)

theorem fraction_append {cs fs r : List Char} (h : Fraction cs fs)
    (hr : ∀ c ∈ r.head?, c.isDigit = false ∧ c ≠ '.') : fraction (cs ++ r) = (fs, r) := by
  cases h with
  | absent =>
    rw [List.nil_append, fraction]
    rintro rest rfl
    exact (hr '.' rfl).2 rfl
  | present digits =>
    rw [List.cons_append, fraction, digits_append digits.2 fun c hc => (hr c hc).1,
      if_neg (by simp [digits.1])]

theorem exponent_append {cs r : List Char} {e : Option Int} (h : Power cs e)
    (hr : ∀ c ∈ r.head?, c.isDigit = false ∧ c ≠ 'e' ∧ c ≠ 'E') :
    Decimal.exponent (cs ++ r) = (e, r) := by
  have hdigits {ds : List Char} (digits : Digits ds) : Decimal.digits (ds ++ r) = (ds, r) :=
    digits_append digits.2 fun c hc => (hr c hc).1
  cases h with
  | absent =>
    cases r with
    | nil => rfl
    | cons c r => simp [Decimal.exponent, (hr c rfl).2]
  | plain mark digits =>
    obtain ⟨d, ds, rfl⟩ := List.exists_cons_of_ne_nil digits.1
    have hd : d.isDigit = true := digits.2 d List.mem_cons_self
    have hminus : d ≠ '-' := by rintro rfl; simp at hd
    have hplus : d ≠ '+' := by rintro rfl; simp at hd
    have := hdigits digits
    simp_all [Decimal.exponent]
  | plus mark digits | minus mark digits =>
    simp [Decimal.exponent, hdigits digits, mark, digits.1]

theorem WholePart.exists_digit {ws : List Char} (h : WholePart ws) :
    ∃ d ds, ws = d :: ds ∧ d.isDigit = true := by
  rcases h with rfl | ⟨⟨hne, hdigits⟩, -⟩
  · exact ⟨'0', [], rfl, rfl⟩
  · obtain ⟨d, ds, rfl⟩ := List.exists_cons_of_ne_nil hne
    exact ⟨d, ds, rfl, hdigits d List.mem_cons_self⟩

/-- A number is read from its parts, once each of them is known to end where the next begins. -/
theorem readNumber_parts {ws fs r₁ r₂ r : List Char} {e : Option Int} (digits : WholePart ws)
    (hws : whole (ws ++ r₁) = (ws, r₁)) (hfs : fraction r₁ = (fs, r₂))
    (he : Decimal.exponent r₂ = (e, r)) (negative : Bool) :
    readNumber (sign negative ++ (ws ++ r₁)) =
      if fs = [] ∧ e = none then
        if Decimal.longest < ws.length then .error ⟨.tooLong ws.length, r.length⟩
        else .ok (.int (if negative then -Decimal.ofDigits ws else Decimal.ofDigits ws), r)
      else
        .ok (.float (if negative then -Decimal.ofParts ws fs (e.getD 0)
          else Decimal.ofParts ws fs (e.getD 0)), r) := by
  obtain ⟨d, ds, rfl, hd⟩ := digits.exists_digit
  have hminus : d ≠ '-' := by rintro rfl; simp at hd
  cases negative <;> simp_all [sign, readNumber]

theorem Power.outside {cs r : List Char} {e : Option Int} (h : Power cs e) (hr : Ends r) :
    ∀ c ∈ (cs ++ r).head?, c.isDigit = false ∧ c ≠ '.' := by
  intro c hc
  cases h with
  | absent => exact ⟨(hr.outside hc).1, (hr.outside hc).2.1⟩
  | plain mark | plus mark | minus mark =>
    obtain rfl : _ = c := Option.some.inj hc
    rcases mark with rfl | rfl <;> decide

theorem Fraction.outside {cs fs r : List Char} (h : Fraction cs fs)
    (hr : ∀ c ∈ r.head?, c.isDigit = false ∧ c ≠ '.') :
    ∀ c ∈ (cs ++ r).head?, c.isDigit = false := by
  intro c hc
  cases h with
  | absent => exact (hr c hc).1
  | present =>
    obtain rfl : _ = c := Option.some.inj hc
    decide

theorem readNumber_number {long : Bool} {cs r : List Char} {v : Value} {depth : Nat}
    (h : Number long cs v) (hr : Ends r) (hdepth : depth ≤ deepest) :
    Comes depth long (v, r) (readNumber (cs ++ r)) := by
  have hexponent {ecs : List Char} {e : Option Int} (power : Power ecs e) :=
    exponent_append power (r := r) fun c hc => ⟨(hr.outside hc).1, (hr.outside hc).2.2⟩
  cases h with
  | @whole negative ds digits =>
    have hfraction := fraction_append .absent (Power.absent.outside hr)
    have hwhole := whole_append digits (Fraction.absent.outside (Power.absent.outside hr))
    have hplain : ([] : List Char) = [] ∧ (none : Option Int) = none := ⟨rfl, rfl⟩
    simp only [List.nil_append] at hfraction hwhole
    rw [List.append_assoc, readNumber_parts digits hwhole hfraction (hexponent .absent),
      if_pos hplain]
    by_cases hlong : Decimal.longest < ds.length
    · rw [if_pos hlong]
      exact .tooLong _ _ (decide_eq_true hlong)
    · rw [if_neg hlong]
      exact .reads hdepth (decide_eq_false hlong)
  | broken negative digits fraction power some_part =>
    have hfraction := fraction_append fraction (power.outside hr)
    have hwhole := whole_append digits (fraction.outside (power.outside hr))
    have hparted := Decidable.not_and_iff_not_or_not.mpr some_part
    simp only [List.append_assoc]
    rw [readNumber_parts digits hwhole hfraction (hexponent power), if_neg hparted]
    exact .reads hdepth rfl

/-! ### Words -/

theorem heads_words : (words.map (·.1.head?)).Nodup ∧ none ∉ words.map (·.1.head?) := by
  decide

/-- Words that begin with different characters do not hide one another. -/
theorem findSome?_words {table : List (List Char × Value)} {w r : List Char} {v : Value}
    (apart : (table.map (·.1.head?)).Nodup) (some_head : none ∉ table.map (·.1.head?))
    (h : (w, v) ∈ table) :
    table.findSome? (fun (u, x) =>
      if u.isPrefixOf (w ++ r) then some (x, (w ++ r).drop u.length) else none) = some (v, r) := by
  induction table with
  | nil => simp at h
  | cons entry table ih =>
    obtain ⟨u, x⟩ := entry
    simp only [List.map_cons, List.nodup_cons, List.mem_cons, not_or] at apart some_head
    rcases List.mem_cons.mp h with heq | hrest
    · obtain ⟨rfl, rfl⟩ := Prod.mk.inj heq
      simp
    · have hhead : w.head? ≠ u.head? := fun heq => apart.1 (heq ▸ List.mem_map_of_mem hrest)
      have hnot : u.isPrefixOf (w ++ r) = false := by
        cases u with
        | nil => simp at some_head
        | cons c u =>
          cases w with
          | nil => exact absurd (List.mem_map_of_mem hrest) some_head.2
          | cons d w =>
            have : c ≠ d := by simpa [eq_comm] using hhead
            simp [List.isPrefixOf, this]
      simp only [List.findSome?_cons, hnot]
      exact ih apart.2 some_head.2 hrest

theorem word?_append {w r : List Char} {v : Value} (h : (w, v) ∈ words) :
    word? (w ++ r) = some (v, r) :=
  findSome?_words heads_words.1 heads_words.2 h

theorem Number.exists_digit {long : Bool} {cs : List Char} {v : Value} (h : Number long cs v) :
    ∃ negative d t, cs = sign negative ++ d :: t ∧ d.isDigit = true := by
  cases h with
  | whole negative digits | broken negative digits =>
    obtain ⟨d, ds, rfl, hd⟩ := digits.exists_digit
    exact ⟨negative, d, _, rfl, hd⟩

theorem notMem_words_of_isDigit {w : List Char} (h : w ∈ words.map (·.1)) {d : Char}
    (hd : d.isDigit = true) : d ∉ w := by
  have hall : (words.map (·.1)).all (fun w => w.all (!·.isDigit)) = true := by decide
  intro hmem
  have hdigit := List.all_eq_true.mp (List.all_eq_true.mp hall w h) d hmem
  simp [hd] at hdigit

/-- No word is the beginning of a number: it would have a digit among its first two characters. -/
theorem word?_number {long : Bool} {cs : List Char} {v : Value} (h : Number long cs v)
    (r : List Char) : word? (cs ++ r) = none := by
  obtain ⟨negative, d, t, rfl, hd⟩ := h.exists_digit
  rw [word?, List.findSome?_eq_none_iff]
  rintro ⟨w, x⟩ hentry
  have hw : w ∈ words.map (·.1) := List.mem_map_of_mem hentry
  refine if_neg fun hprefix => notMem_words_of_isDigit hw hd ?_
  rw [List.isPrefixOf_iff_prefix] at hprefix
  obtain ⟨a, b, w, rfl⟩ : ∃ a b w', w = a :: b :: w' := by
    have hlong : ∀ w ∈ words.map (·.1), 2 ≤ w.length := by decide
    match w, hlong w hw with
    | a :: b :: w, _ => exact ⟨a, b, w, rfl⟩
  cases negative with
  | false =>
    obtain ⟨rfl, -⟩ := List.cons_prefix_cons.mp hprefix
    exact List.mem_cons_self
  | true =>
    obtain ⟨-, hprefix⟩ := List.cons_prefix_cons.mp hprefix
    obtain ⟨rfl, -⟩ := List.cons_prefix_cons.mp hprefix
    exact List.mem_cons_of_mem _ List.mem_cons_self

/-! ### Values -/

/-- What begins neither a word nor a number. -/
def marks : List Char := ['"', '[', ']', '\x7b', '\ufeff']

theorem head_of_word {w : List Char} {v : Value} (h : (w, v) ∈ words) :
    ∃ c t, w = c :: t ∧ isBlank c = false ∧ c ∉ marks := by
  have hall : (words.map (·.1)).all
      (·.head?.all fun c => !isBlank c && !marks.contains c) = true := by decide
  have hfirst := List.all_eq_true.mp hall w (List.mem_map_of_mem (f := (·.1)) h)
  cases w with
  | nil => exact absurd (List.mem_map_of_mem (f := (·.1.head?)) h) heads_words.2
  | cons c t => exact ⟨c, t, rfl, by simpa using hfirst⟩

theorem Number.head {long : Bool} {cs : List Char} {v : Value} (h : Number long cs v) :
    ∃ c t, cs = c :: t ∧ isBlank c = false ∧ c ∉ marks := by
  obtain ⟨negative, d, t, rfl, hd⟩ := h.exists_digit
  cases negative with
  | false =>
    refine ⟨d, t, rfl, ?_, fun hmem => ?_⟩
    · simp only [isBlank, Bool.or_eq_false_iff, beq_eq_false_iff_ne]
      refine ⟨⟨⟨?_, ?_⟩, ?_⟩, ?_⟩ <;> rintro rfl <;> simp at hd
    · have hall : marks.all (!·.isDigit) = true := by decide
      simpa [hd] using List.all_eq_true.mp hall d hmem
  | true => exact ⟨'-', d :: t, rfl, by decide, by decide⟩

theorem Written.head {d : Nat} {long : Bool} {cs : List Char} {v : Value}
    (h : Written d long cs (.value v)) :
    ∃ c t, cs = c :: t ∧ isBlank c = false ∧ c ≠ ']' ∧ c ≠ '\ufeff' := by
  cases h with
  | word known =>
    obtain ⟨c, t, rfl, hblank, hc⟩ := head_of_word known
    exact ⟨c, t, rfl, hblank, by simp_all [marks]⟩
  | number number =>
    obtain ⟨c, t, rfl, hblank, hc⟩ := number.head
    exact ⟨c, t, rfl, hblank, by simp_all [marks]⟩
  | text | emptyList | list | emptyMap | map => exact ⟨_, _, rfl, by decide⟩

/-- Blanks in front of a value are skipped, and nothing else. -/
theorem Written.skipBlank_value {d : Nat} {long : Bool} {bs cs : List Char} {v : Value}
    (hbs : Blanks bs) (h : Written d long cs (.value v)) (r : List Char) :
    skipBlank (bs ++ (cs ++ r)) = cs ++ r := by
  obtain ⟨c, t, rfl, hblank, -⟩ := h.head
  rw [skipBlank_append hbs, List.cons_append, skipBlank_cons hblank]

theorem Written.skipBlank_items {d : Nat} {long : Bool} {cs : List Char} {vs : List Value}
    (h : Written d long cs (.items vs)) (r : List Char) :
    ∃ c t, skipBlank (cs ++ r) = c :: t ∧ c ≠ ']' := by
  cases h with
  | lastItem before value after =>
    obtain ⟨c, t, rfl, -, hc, -⟩ := value.head
    exact ⟨c, _, by simpa using value.skipBlank_value before _, hc⟩
  | item before value after more =>
    obtain ⟨c, t, rfl, -, hc, -⟩ := value.head
    exact ⟨c, _, by simpa using value.skipBlank_value before _, hc⟩

theorem Written.skipBlank_entries {d : Nat} {long : Bool} {cs : List Char}
    {es : List (String × Value)} (h : Written d long cs (.entries es)) (r : List Char) :
    ∃ t, skipBlank (cs ++ r) = '"' :: t := by
  cases h with
  | lastEntry before | entry before =>
    rw [List.append_assoc, skipBlank_append before, List.cons_append, skipBlank_cons (by decide)]
    exact ⟨_, rfl⟩

theorem readValue_scalar {c : Char} {t : List Char} (fuel depth : Nat) (hc : c ∉ marks) :
    readValue (fuel + 1) depth (c :: t) = (word? (c :: t)).elim (readNumber (c :: t)) .ok := by
  simp only [marks, List.mem_cons, List.not_mem_nil, or_false, not_or] at hc
  cases hword : word? (c :: t) <;> simp [readValue, hc, hword]

/-! ### Lists and maps -/

theorem readValue_list {fuel depth : Nat} (h : depth < deepest) {c : Char} {cs t : List Char}
    (hskip : skipBlank cs = c :: t) (hc : c ≠ ']') :
    readValue (fuel + 1) depth ('[' :: cs) = readItems fuel (depth + 1) [] (skipBlank cs) := by
  simp [readValue, Nat.not_le.mpr h, hskip, hc]

theorem readValue_map {fuel depth : Nat} (h : depth < deepest) {cs t : List Char}
    (hskip : skipBlank cs = '"' :: t) :
    readValue (fuel + 1) depth ('\x7b' :: cs) = readEntries fuel (depth + 1) [] (skipBlank cs) := by
  simp [readValue, Nat.not_le.mpr h, hskip]

theorem readValue_tooDeep {fuel depth : Nat} (h : deepest ≤ depth) {c : Char}
    (hc : c = '[' ∨ c = '\x7b') (cs : List Char) :
    readValue (fuel + 1) depth (c :: cs) = .error ⟨.tooDeep, cs.length + 1⟩ := by
  rcases hc with rfl | rfl <;> simp [readValue, h]

theorem readItems_eq {fuel depth : Nat} {acc : List Value} (cs : List Char) :
    readItems (fuel + 1) depth acc cs = readValue fuel depth cs >>= fun (v, rest) =>
      match skipBlank rest with
      | ']' :: r => .ok (.list (v :: acc).reverse, r)
      | ',' :: r => readItems fuel depth (v :: acc) (skipBlank r)
      | r => .error ⟨.expectingComma, r.length⟩ :=
  rfl

/-- What the reader makes of an entry whose key and colon it finds. -/
theorem readEntries_eq {fuel depth : Nat} {acc : List (Value × Value)}
    {bs ks k bs₁ bs₂ cs r : List Char} {d : Nat} {long : Bool} {v : Value} (before : Blanks bs)
    (key : Spelled ks k) (to_colon : Blanks bs₁) (from_colon : Blanks bs₂)
    (value : Written d long cs (.value v)) :
    readEntries (fuel + 1) depth acc
        (skipBlank (bs ++ '"' :: (ks ++ '"' :: (bs₁ ++ ':' :: (bs₂ ++ (cs ++ r)))))) =
      readValue fuel depth (cs ++ r) >>= fun (v, rest) =>
        match skipBlank rest with
        | '}' :: r => .ok (.map (Value.put (String.ofList k) v acc), r)
        | ',' :: r => readEntries fuel depth (Value.put (String.ofList k) v acc) (skipBlank r)
        | r => .error ⟨.expectingComma, r.length⟩ := by
  rw [skipBlank_append before, skipBlank_cons (by decide), readEntries, readText_spelled key]
  simp only [List.reverse_nil, List.nil_append]
  change pure (String.ofList k, bs₁ ++ ':' :: (bs₂ ++ (cs ++ r))) >>= _ = _
  rw [pure_bind, skipBlank_append to_colon, skipBlank_cons (by decide)]
  exact congrArg (readValue fuel depth · >>= _) (value.skipBlank_value from_colon r)

/-- What reading finds at the characters of a form. Two units of fuel for a character are enough: a
value takes one for itself, and a bracket one for the items behind it. -/
def Found (d : Nat) (long : Bool) (cs : List Char) : Form → Prop
  | .value v => ∀ fuel depth r, 2 * cs.length ≤ fuel → depth ≤ deepest → Ends r →
      Comes (depth + d) long (v, r) (readValue fuel depth (cs ++ r))
  | .items vs => ∀ fuel depth acc r, 2 * cs.length + 1 ≤ fuel → depth ≤ deepest →
      Comes (depth + d) long (.list (acc.reverse ++ vs), r)
        (readItems fuel depth acc (skipBlank (cs ++ ']' :: r)))
  | .entries es => ∀ fuel depth acc r, 2 * cs.length + 1 ≤ fuel → depth ≤ deepest →
      Comes (depth + d) long (.map (es.foldl (fun m e => Value.put e.1 e.2 m) acc), r)
        (readEntries fuel depth acc (skipBlank (cs ++ '}' :: r)))

section

variable {d d' : Nat} {long long' : Bool} {bs cs bs' rest : List Char} {v : Value}
  {vs : List Value} {es : List (String × Value)}

theorem found_word {w : List Char} (known : (w, v) ∈ words) : Found 0 false w (.value v) := by
  intro fuel depth r hfuel hdepth hr
  have hword := word?_append (r := r) known
  obtain ⟨c, t, rfl, -, hc⟩ := head_of_word known
  obtain _ | fuel := fuel
  · simp at hfuel
  rw [List.cons_append, readValue_scalar _ _ hc, ← List.cons_append, hword]
  exact .reads hdepth rfl

theorem found_number (number : Number long cs v) : Found 0 long cs (.value v) := by
  intro fuel depth r hfuel hdepth hr
  have hword := word?_number number r
  have hread := readNumber_number number hr hdepth
  obtain ⟨c, t, rfl, -, hc⟩ := number.head
  obtain _ | fuel := fuel
  · simp at hfuel
  rw [List.cons_append, readValue_scalar _ _ hc, ← List.cons_append, hword]
  exact hread

theorem found_text {s : List Char} (spelled : Spelled cs s) :
    Found 0 false ('"' :: (cs ++ ['"'])) (.value (.text (String.ofList s))) := by
  intro fuel depth r hfuel hdepth hr
  obtain _ | fuel := fuel
  · simp at hfuel
  simp only [List.cons_append, List.append_assoc, List.nil_append]
  rw [readValue, if_pos (by rfl), readText_spelled spelled]
  exact .reads hdepth rfl

/-- A bracket is refused at the limit. Below it, what it opens decides. -/
theorem found_bracket {c : Char} (hc : c = '[' ∨ c = '\x7b')
    (inner : ∀ fuel depth r, 2 * cs.length + 1 ≤ fuel → depth < deepest →
      Comes (depth + 1 + d) long (v, r) (readValue (fuel + 1) depth (c :: (cs ++ r)))) :
    Found (d + 1) long (c :: cs) (.value v) := by
  intro fuel depth r hfuel hdepth hr
  obtain _ | fuel := fuel
  · simp at hfuel
  rw [List.length_cons] at hfuel
  rw [List.cons_append]
  by_cases hlimit : deepest ≤ depth
  · rw [readValue_tooDeep hlimit hc]
    exact .tooDeep _ (by omega)
  · rw [Nat.add_comm d, ← Nat.add_assoc]
    exact inner fuel depth r (by omega) (Nat.not_le.mp hlimit)

theorem found_emptyList (blanks : Blanks bs) :
    Found 1 false ('[' :: (bs ++ [']'])) (.value (.list [])) := by
  refine found_bracket (.inl rfl) fun fuel depth r _ hdepth => ?_
  have hskip := (skipBlank_append blanks (']' :: r)).trans (skipBlank_cons (by decide) r)
  have hread : readValue (fuel + 1) depth ('[' :: (bs ++ ']' :: r)) = .ok (.list [], r) := by
    simp [readValue, Nat.not_le.mpr hdepth, hskip]
  rw [List.append_assoc, List.singleton_append, hread]
  exact .reads hdepth rfl

theorem found_emptyMap (blanks : Blanks bs) :
    Found 1 false ('\x7b' :: (bs ++ ['}'])) (.value (.map [])) := by
  refine found_bracket (.inr rfl) fun fuel depth r _ hdepth => ?_
  have hskip := (skipBlank_append blanks ('}' :: r)).trans (skipBlank_cons (by decide) r)
  have hread : readValue (fuel + 1) depth ('\x7b' :: (bs ++ '}' :: r)) = .ok (.map [], r) := by
    simp [readValue, Nat.not_le.mpr hdepth, hskip]
  rw [List.append_assoc, List.singleton_append, hread]
  exact .reads hdepth rfl

theorem found_list (items : Written d long cs (.items vs)) (h : Found d long cs (.items vs)) :
    Found (d + 1) long ('[' :: (cs ++ [']'])) (.value (.list vs)) := by
  refine found_bracket (.inl rfl) fun fuel depth r hfuel hdepth => ?_
  obtain ⟨c, t, hskip, hc⟩ := items.skipBlank_items (']' :: r)
  rw [List.append_assoc, List.singleton_append, readValue_list hdepth hskip hc]
  rw [List.length_append] at hfuel
  exact h fuel (depth + 1) [] r (by omega) hdepth

theorem found_map (entries : Written d long cs (.entries es)) (h : Found d long cs (.entries es)) :
    Found (d + 1) long ('\x7b' :: (cs ++ ['}'])) (.value (.map (mapOf es))) := by
  refine found_bracket (.inr rfl) fun fuel depth r hfuel hdepth => ?_
  obtain ⟨t, hskip⟩ := entries.skipBlank_entries ('}' :: r)
  rw [List.append_assoc, List.singleton_append, readValue_map hdepth hskip]
  rw [List.length_append] at hfuel
  exact h fuel (depth + 1) [] r (by omega) hdepth

theorem found_lastItem (before : Blanks bs) (value : Written d long cs (.value v))
    (after : Blanks bs') (h : Found d long cs (.value v)) :
    Found d long (bs ++ (cs ++ bs')) (.items [v]) := by
  intro fuel depth acc r hfuel hdepth
  obtain _ | fuel := fuel
  · simp at hfuel
  simp only [List.append_assoc, List.length_append] at hfuel ⊢
  rw [value.skipBlank_value before, readItems_eq]
  have hvalue := h fuel depth (bs' ++ ']' :: r) (by omega) hdepth
    (ends_append after (ends_cons (by simp) r))
  refine hvalue.map ?_
  dsimp only
  rw [skipBlank_append after, skipBlank_cons (by decide)]
  simp

theorem found_item (before : Blanks bs) (value : Written d long cs (.value v))
    (after : Blanks bs') (h : Found d long cs (.value v))
    (hmore : Found d' long' rest (.items vs)) :
    Found (max d d') (long || long') (bs ++ (cs ++ (bs' ++ ',' :: rest))) (.items (v :: vs)) := by
  intro fuel depth acc r hfuel hdepth
  obtain _ | fuel := fuel
  · simp at hfuel
  simp only [List.append_assoc, List.cons_append, List.length_append, List.length_cons] at hfuel ⊢
  rw [value.skipBlank_value before, readItems_eq, ← Nat.add_max_add_left]
  have hvalue := h fuel depth (bs' ++ ',' :: (rest ++ ']' :: r)) (by omega) hdepth
    (ends_append after (ends_cons (by simp) _))
  refine hvalue.bind ?_
  dsimp only
  rw [skipBlank_append after, skipBlank_cons (by decide)]
  simpa using hmore fuel depth (v :: acc) r (by omega) hdepth

theorem found_lastEntry {ks k bs₁ bs₂ : List Char} (before : Blanks bs) (key : Spelled ks k)
    (to_colon : Blanks bs₁) (from_colon : Blanks bs₂) (value : Written d long cs (.value v))
    (after : Blanks bs') (h : Found d long cs (.value v)) :
    Found d long (bs ++ '"' :: (ks ++ '"' :: (bs₁ ++ ':' :: (bs₂ ++ (cs ++ bs')))))
      (.entries [(String.ofList k, v)]) := by
  intro fuel depth acc r hfuel hdepth
  obtain _ | fuel := fuel
  · simp at hfuel
  simp only [List.append_assoc, List.cons_append, List.length_append, List.length_cons] at hfuel ⊢
  rw [readEntries_eq before key to_colon from_colon value]
  have hvalue := h fuel depth (bs' ++ '}' :: r) (by omega) hdepth
    (ends_append after (ends_cons (by simp) r))
  refine hvalue.map ?_
  dsimp only
  rw [skipBlank_append after, skipBlank_cons (by decide)]
  rfl

theorem found_entry {ks k bs₁ bs₂ : List Char} (before : Blanks bs) (key : Spelled ks k)
    (to_colon : Blanks bs₁) (from_colon : Blanks bs₂) (value : Written d long cs (.value v))
    (after : Blanks bs') (h : Found d long cs (.value v))
    (hmore : Found d' long' rest (.entries es)) :
    Found (max d d') (long || long')
      (bs ++ '"' :: (ks ++ '"' :: (bs₁ ++ ':' :: (bs₂ ++ (cs ++ (bs' ++ ',' :: rest))))))
      (.entries ((String.ofList k, v) :: es)) := by
  intro fuel depth acc r hfuel hdepth
  obtain _ | fuel := fuel
  · simp at hfuel
  simp only [List.append_assoc, List.cons_append, List.length_append, List.length_cons] at hfuel ⊢
  rw [readEntries_eq before key to_colon from_colon value, ← Nat.add_max_add_left]
  have hvalue := h fuel depth (bs' ++ ',' :: (rest ++ '}' :: r)) (by omega) hdepth
    (ends_append after (ends_cons (by simp) _))
  refine hvalue.bind ?_
  dsimp only
  rw [skipBlank_append after, skipBlank_cons (by decide)]
  exact hmore fuel depth (Value.put (String.ofList k) v acc) r (by omega) hdepth

/-- Reading finds every form where it is written. -/
theorem Written.found {f : Form} (h : Written d long cs f) : Found d long cs f := by
  induction h with
  | word known => exact found_word known
  | number number => exact found_number number
  | text spelled => exact found_text spelled
  | emptyList blanks => exact found_emptyList blanks
  | list items ih => exact found_list items ih
  | emptyMap blanks => exact found_emptyMap blanks
  | map entries ih => exact found_map entries ih
  | lastItem before value after ih => exact found_lastItem before value after ih
  | item before value after _ ih ih_more => exact found_item before value after ih ih_more
  | lastEntry before key to_colon from_colon value after ih =>
    exact found_lastEntry before key to_colon from_colon value after ih
  | entry before key to_colon from_colon value after _ ih ih_more =>
    exact found_entry before key to_colon from_colon value after ih ih_more

end

/-- A whole text is read as what it means. -/
theorem Means.comes {s : String} {v : Value} {depth : Nat} {long : Bool}
    (h : Means s v depth long) : Comes depth long v (readAll s.toList) := by
  obtain ⟨bs, cs, bs', htext, before, after, hwritten⟩ := h
  rw [htext, readAll]
  · rw [hwritten.skipBlank_value before]
    have hread := hwritten.found (2 * (bs ++ (cs ++ bs')).length + 2) 0 bs'
      (by simp only [List.length_append]; omega) (Nat.zero_le _)
      (by simpa using ends_append after (r := []) (by simp [Ends]))
    rw [Nat.zero_add] at hread
    refine hread.map ?_
    have hend : skipBlank bs' = [] := by
      rw [← List.append_nil bs', skipBlank_append after]
      rfl
    simp only [hend]
  · intro t ht
    obtain ⟨c, cs, rfl, -, -, hmark⟩ := hwritten.head
    cases bs with
    | nil => exact hmark (List.cons.inj ht).1
    | cons b bs =>
      have hb := before b List.mem_cons_self
      rw [(List.cons.inj ht).1] at hb
      exact absurd hb (by decide)

end TableLoom.Json
