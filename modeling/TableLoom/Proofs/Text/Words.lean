import Mathlib
import TableLoom.Proofs.Text.Legible
import TableLoom.Proofs.Text.Split

/-!
Names between words in lower case and words run together. Every association is the member's name in the
second form; that form has no underscores, and the first is got back from it if the words are customary. The
second form can be read in one pass: an underscore is not written, and what follows it gets a capital; so it
makes no difference to set the words apart in lower case first, however they were written before.
-/

namespace TableLoom.Naming

open Text (upperChar lowerChar isUpperChar splitChars)

/-- The association of a relationship is its member in words run together. -/
theorem association_eq (column table : String) (many : Bool) :
    (if many && column != reverseColumn then pascal (relationMember column table many)
      else association column table many) = pascal (relationMember column table many) := by
  unfold association relationMember pascalSingular
  cases many <;> cases hreverse : column == reverseColumn <;> simp [hreverse, bne]

theorem flatMap_splitChars (sep : Char) (cs : List Char) :
    (splitChars sep cs).flatMap (sep :: ·) = sep :: cs := by
  induction cs with
  | nil => rfl
  | cons c rest ih =>
      rw [splitChars]
      split
      · next heq =>
          rw [List.flatMap_cons, ih, beq_iff_eq.mp heq]
          rfl
      · cases hsplit : splitChars sep rest with
        | nil => rw [hsplit] at ih; cases ih
        | cons part parts =>
            rw [hsplit, List.flatMap_cons] at ih
            simpa using ih

section

variable {c : Char}

theorem toNat_of_isLower (h : c.isLower = true) : 97 ≤ c.toNat ∧ c.toNat ≤ 122 := by
  obtain ⟨hfirst, hlast⟩ := Bool.and_eq_true_iff.mp h
  exact ⟨of_decide_eq_true hfirst, of_decide_eq_true hlast⟩

theorem toNat_of_isUpper (h : c.isUpper = true) : 65 ≤ c.toNat ∧ c.toNat ≤ 90 :=
  of_decide_eq_true h

theorem upperChar_of_ascii (h : c.toNat < 128) : upperChar c = [c.toUpper] := if_pos h

theorem lowerChar_of_ascii (h : c.toNat < 128) : lowerChar c = [c.toLower] := if_pos h

theorem isUpperChar_of_ascii (h : c.toNat < 128) : isUpperChar c = c.isUpper := if_pos h

theorem isUpper_toUpper (h : c.isLower = true) : c.toUpper.isUpper = true := by
  rw [Char.isUpper_toUpper_eq_isAlpha, Char.isAlpha, h, Bool.or_true]

theorem toUpper_ne {d : Char} (hd : d.isUpper = false) (h : c ≠ d) : c.toUpper ≠ d := by
  rintro rfl
  by_cases hlower : c.isLower = true
  · rw [isUpper_toUpper hlower] at hd
    cases hd
  · exact h (Char.toUpper_eq_of_not_isLower hlower).symm

end

/-- A lower-case letter, and after it lower-case letters and digits. -/
def isWord : List Char → Bool
  | [] => false
  | c :: rest => c.isLower && rest.all fun d => d.isLower || d.isDigit

/-- Words joined by underscores. -/
def Customary (name : String) : Prop :=
  ∀ word ∈ splitChars '_' name.toList, isWord word = true

instance (name : String) : Decidable (Customary name) :=
  inferInstanceAs (Decidable (∀ word ∈ splitChars '_' name.toList, isWord word = true))

/-- What stands for a letter within a name once the words are apart. -/
def spread (d : Char) : List Char :=
  if isUpperChar d then '_' :: lowerChar d else lowerChar d

theorem lowerChar_toUpper {c : Char} (h : c.isLower = true) : lowerChar c.toUpper = [c] := by
  have hbounds := toNat_of_isLower h
  rw [lowerChar_of_ascii (Text.toNat_toUpper (by omega)), Char.toLower_toUpper_eq_toLower,
    Char.toLower_eq_of_not_isUpper (Char.not_isUpper_of_isLower h)]

theorem spread_toUpper {c : Char} (h : c.isLower = true) : spread c.toUpper = ['_', c] := by
  have hbounds := toNat_of_isLower h
  rw [spread, isUpperChar_of_ascii (Text.toNat_toUpper (by omega)), lowerChar_toUpper h,
    if_pos (isUpper_toUpper h)]

theorem spread_within {d : Char} (h : (d.isLower || d.isDigit) = true) : spread d = [d] := by
  have hbounds : 48 ≤ d.toNat ∧ d.toNat ≤ 57 ∨ 97 ≤ d.toNat ∧ d.toNat ≤ 122 :=
    (Bool.or_eq_true_iff.mp h).symm.imp Text.toNat_of_isDigit toNat_of_isLower
  have hascii : d.toNat < 128 := by omega
  have hupper : ¬ d.isUpper = true := by
    intro hupper
    have := toNat_of_isUpper hupper
    omega
  rw [spread, isUpperChar_of_ascii hascii, lowerChar_of_ascii hascii,
    Char.toLower_eq_of_not_isUpper hupper, if_neg hupper]

theorem spread_capitalized {word : List Char} (h : isWord word = true) :
    (capitalized word).flatMap spread = '_' :: word := by
  cases word with
  | nil => cases h
  | cons c rest =>
      obtain ⟨hc, hrest⟩ := Bool.and_eq_true_iff.mp h
      have hbounds := toNat_of_isLower hc
      have hsame : rest.flatMap spread = rest := by
        rw [List.flatMap_congr fun d hd => spread_within (List.all_eq_true.mp hrest d hd)]
        exact List.flatMap_singleton' rest
      rw [capitalized, upperChar_of_ascii (by omega), List.singleton_append, List.flatMap_cons,
        spread_toUpper hc, hsame]
      rfl

theorem spread_pascal {cs : List Char} (h : ∀ word ∈ splitChars '_' cs, isWord word = true) :
    (pascalChars cs).flatMap spread = '_' :: cs := by
  -- Every word gets back the underscore in front of it, so that one stands before the first as well.
  rw [pascalChars, List.flatMap_assoc,
    List.flatMap_congr fun word hword => spread_capitalized (h word hword)]
  exact flatMap_splitChars '_' cs

theorem snakeChars_pascalChars {cs : List Char} (h : ∀ word ∈ splitChars '_' cs, isWord word = true) :
    snakeChars (pascalChars cs) = cs := by
  have hspread := spread_pascal h
  cases hsplit : splitChars '_' cs with
  | nil =>
      have hcs := flatMap_splitChars '_' cs
      rw [hsplit] at hcs
      cases hcs
  | cons word words =>
      have hword : isWord word = true := h word (hsplit ▸ List.mem_cons_self)
      cases word with
      | nil => cases hword
      | cons c rest =>
          have hc := (Bool.and_eq_true_iff.mp hword).1
          have hbounds := toNat_of_isLower hc
          have hpascal : pascalChars cs = c.toUpper :: (rest ++ words.flatMap capitalized) := by
            rw [pascalChars, hsplit, List.flatMap_cons, capitalized, upperChar_of_ascii (by omega)]
            rfl
          rw [hpascal, List.flatMap_cons, spread_toUpper hc] at hspread
          rw [hpascal, snakeChars, lowerChar_toUpper hc]
          exact (List.cons_inj_right '_').mp hspread

theorem snake_pascal {name : String} (h : Customary name) : snake (pascal name) = name := by
  rw [snake, pascal, String.toList_ofList, snakeChars_pascalChars h, String.ofList_toList]

theorem pascal_injective {s t : String} (hs : Customary s) (ht : Customary t)
    (h : pascal s = pascal t) : s = t := by
  rw [← snake_pascal hs, h, snake_pascal ht]

/-- Words run together consist of the characters of the name and of their upper case. -/
theorem mem_pascal {name : String} (h : Text.Ascii name) {d : Char} (hd : d ∈ (pascal name).toList) :
    ∃ c ∈ name.toList, d = c ∨ d = c.toUpper := by
  rw [pascal, String.toList_ofList, pascalChars, List.mem_flatMap] at hd
  obtain ⟨word, hword, hd⟩ := hd
  have hmem := fun c => Text.mem_of_mem_splitChars (c := c) hword
  cases word with
  | nil => cases hd
  | cons c rest =>
      have hc := hmem c List.mem_cons_self
      rw [capitalized, upperChar_of_ascii (h c hc), List.singleton_append, List.mem_cons] at hd
      rcases hd with rfl | hd
      · exact ⟨c, hc, .inr rfl⟩
      · exact ⟨d, hmem d (List.mem_cons_of_mem c hd), .inl rfl⟩

/-- Words run together have no underscores left. -/
theorem underscore_notMem_pascal {name : String} (h : Text.Ascii name) :
    '_' ∉ (pascal name).toList := by
  rw [pascal, String.toList_ofList, pascalChars, List.mem_flatMap]
  rintro ⟨word, hword, hmem⟩
  have hword' := Text.notMem_splitChars _ _ _ hword
  cases word with
  | nil => cases hmem
  | cons c rest =>
      have hc := h c (Text.mem_of_mem_splitChars hword List.mem_cons_self)
      rw [capitalized, upperChar_of_ascii hc, List.singleton_append, List.mem_cons] at hmem
      rw [List.mem_cons, not_or] at hword'
      exact hmem.elim (fun heq => toUpper_ne (by decide) (Ne.symm hword'.1) heq.symm) hword'.2

theorem singularChars_cons (c : Char) (rest : List Char) :
    ∃ more, singularChars (c :: rest) = c :: more := by
  unfold singularChars
  split
  · next h =>
      cases rest with
      | nil => simp at h
      | cons d rest => exact ⟨(d :: rest).dropLast, List.dropLast_cons_cons⟩
  · exact ⟨rest, rfl⟩

theorem pascalChars_cons {c : Char} (h : c ≠ '_') (rest : List Char) :
    ∃ more, pascalChars (c :: rest) = upperChar c ++ more := by
  unfold pascalChars
  rw [splitChars, if_neg (by simpa using h)]
  cases splitChars '_' rest with
  | nil => exact ⟨[], by simp [capitalized]⟩
  | cons part parts => exact ⟨part ++ parts.flatMap capitalized, by simp [capitalized]⟩

/-- The name of one record begins with an upper-case letter if the table's begins with a letter. -/
theorem pascalSingular_cons {name : String} {c : Char} {rest : List Char} (h : name.toList = c :: rest)
    (alpha : c.isAlpha = true) : ∃ more, (pascalSingular name).toList = c.toUpper :: more := by
  have hbounds := Text.toNat_of_isAlpha alpha
  have hne : c ≠ '_' := by
    rintro rfl
    exact absurd alpha (by decide)
  obtain ⟨fewer, hsingular⟩ := singularChars_cons c rest
  obtain ⟨more, hpascal⟩ := pascalChars_cons hne fewer
  refine ⟨more, ?_⟩
  rw [pascalSingular, pascal, singular, String.toList_ofList, String.toList_ofList, h, hsingular,
    hpascal, upperChar_of_ascii (by omega), List.singleton_append]

/-! ### Words run together in one pass -/

/-- The characters of words run together, where a word is under way already or begins. -/
def runTogether : Bool → List Char → List Char
  | _, [] => []
  | begins, c :: rest =>
    if c == '_' then runTogether true rest
    else (if begins then upperChar c else [c]) ++ runTogether false rest

/-- The first part between underscores goes on with the word under way. -/
theorem runTogether_split (cs : List Char) : ∃ part parts, splitChars '_' cs = part :: parts ∧
    runTogether true cs = capitalized part ++ parts.flatMap capitalized ∧
    runTogether false cs = part ++ parts.flatMap capitalized := by
  induction cs with
  | nil => exact ⟨[], [], rfl, rfl, rfl⟩
  | cons c rest ih =>
      obtain ⟨part, parts, hsplit, hbegins, hgoes⟩ := ih
      by_cases hc : c = '_'
      · exact ⟨[], part :: parts, by simp [splitChars, hc, hsplit], by
          simp [runTogether, hc, hbegins, capitalized], by simp [runTogether, hc, hbegins]⟩
      · exact ⟨c :: part, parts, by simp [splitChars, hc, hsplit], by
          simp [runTogether, hc, hgoes, capitalized], by simp [runTogether, hc, hgoes]⟩

theorem pascalChars_eq (cs : List Char) : pascalChars cs = runTogether true cs := by
  obtain ⟨part, parts, hsplit, hbegins, -⟩ := runTogether_split cs
  rw [pascalChars, hsplit, List.flatMap_cons, hbegins]

section

variable {c : Char}

theorem toNat_toLower (h : c.toNat < 128) : c.toLower.toNat < 128 := by
  by_cases hupper : c.isUpper = true
  · have hlower : c.toLower.isLower = true := by
      rw [Char.isLower_toLower_eq_isAlpha, Char.isAlpha, hupper, Bool.true_or]
    exact (toNat_of_isLower hlower).2.trans_lt (by decide)
  · rwa [Char.toLower_eq_of_not_isUpper hupper]

theorem upperChar_toLower (h : c.toNat < 128) : upperChar c.toLower = upperChar c := by
  rw [upperChar_of_ascii (toNat_toLower h), upperChar_of_ascii h, Char.toUpper_toLower_eq_toUpper]

theorem toLower_eq_underscore : c.toLower = '_' ↔ c = '_' := by
  constructor
  · intro h
    by_cases hupper : c.isUpper = true
    · have halpha := Char.isLower_toLower_eq_isAlpha c
      rw [h, Char.isAlpha, hupper, Bool.true_or] at halpha
      exact absurd halpha (by decide)
    · rwa [Char.toLower_eq_of_not_isUpper hupper] at h
  · rintro rfl
    rfl

/-- At the beginning of a word it is all one whether a letter is a capital. -/
theorem runTogether_lower (h : c.toNat < 128) (rest : List Char) :
    runTogether true (lowerChar c ++ rest) = runTogether true (c :: rest) := by
  rw [lowerChar_of_ascii h, List.singleton_append, runTogether, runTogether, upperChar_toLower h]
  simp only [beq_iff_eq, toLower_eq_underscore, if_true]

/-- A capital begins a word wherever it stands. -/
theorem runTogether_spread (h : c.toNat < 128) (begins : Bool) (rest : List Char) :
    runTogether begins (spread c ++ rest) = runTogether begins (c :: rest) := by
  unfold spread
  rw [isUpperChar_of_ascii h]
  by_cases hupper : c.isUpper = true
  · have hsame : upperChar c = [c] := by
      rw [upperChar_of_ascii h, Char.toUpper_eq_of_not_isLower (Char.not_isLower_of_isUpper hupper)]
    have hmark : (c == '_') = false := by
      rw [beq_eq_false_iff_ne]
      rintro rfl
      exact absurd hupper (by decide)
    rw [if_pos hupper, List.cons_append, runTogether, if_pos (beq_self_eq_true '_'),
      runTogether_lower h, runTogether, runTogether, hsame, hmark]
    simp
  · rw [if_neg hupper, lowerChar_of_ascii h, Char.toLower_eq_of_not_isUpper hupper,
      List.singleton_append]

end

theorem runTogether_flatMap_spread {cs : List Char} (ascii : ∀ c ∈ cs, c.toNat < 128) (begins : Bool) :
    runTogether begins (cs.flatMap spread) = runTogether begins cs := by
  induction cs generalizing begins with
  | nil => rfl
  | cons c rest ih =>
      obtain ⟨hc, hrest⟩ := List.forall_mem_cons.mp ascii
      rw [List.flatMap_cons, runTogether_spread hc, runTogether, runTogether, ih hrest, ih hrest]

theorem pascalChars_snakeChars {cs : List Char} (ascii : ∀ c ∈ cs, c.toNat < 128) :
    pascalChars (snakeChars cs) = pascalChars cs := by
  cases cs with
  | nil => rfl
  | cons c rest =>
      obtain ⟨hc, hrest⟩ := List.forall_mem_cons.mp ascii
      have hsnake : snakeChars (c :: rest) = lowerChar c ++ rest.flatMap spread := rfl
      rw [pascalChars_eq, pascalChars_eq, hsnake, runTogether_lower hc, runTogether, runTogether,
        runTogether_flatMap_spread hrest, runTogether_flatMap_spread hrest]

/-- Letters, digits and underscores in any order run together in the same way once the words are apart. -/
theorem pascal_snake {s : String} (h : ∀ c ∈ s.toList, c.isAlphanum = true ∨ c = '_') :
    pascal (snake s) = pascal s := by
  have ascii : ∀ c ∈ s.toList, c.toNat < 128 := by
    intro c hc
    refine Text.toNat_of_isNameRest ?_
    rw [Text.isNameRest, Bool.or_eq_true, beq_iff_eq]
    exact h c hc
  rw [pascal, pascal, snake, String.toList_ofList, pascalChars_snakeChars ascii]

theorem pascal_snake_underscored :
    (∀ c ∈ "_HTTPServer__v2_".toList, c.isAlphanum = true ∨ c = '_') ∧
      snake "_HTTPServer__v2_" = "__h_t_t_p_server__v2_" ∧
      pascal (snake "_HTTPServer__v2_") = pascal "_HTTPServer__v2_" := by
  have hplain : ∀ c ∈ "_HTTPServer__v2_".toList, c.isAlphanum = true ∨ c = '_' := by
    simp
  exact ⟨hplain, by cbv, pascal_snake hplain⟩

end TableLoom.Naming
