import TableLoom.Proofs.Text.Name

/-!
Statements and emitted source as tokens: the longest runs of the characters of names, and every other
character on its own. What is read of two texts one after the other is what is read of each, unless the
first ends and the second begins within a name; so a name stays one token wherever it is put between
other characters.
-/

namespace TableLoom.Text

/-- ASCII letters, digits and underscores, no digit first, and nothing before or after them. -/
def IsName (s : String) : Prop :=
  isNameChars s.toList = true

instance (s : String) : Decidable (IsName s) :=
  inferInstanceAs (Decidable (isNameChars s.toList = true))

theorem IsName.chars {s : String} (h : IsName s) : ∀ c ∈ s.toList, isNameRest c = true :=
  isNameRest_of_isNameChars h

theorem IsName.ne_nil {s : String} (h : IsName s) : s.toList ≠ [] := by
  intro hnil
  rw [IsName, hnil] at h
  cases h

theorem IsName.no_line_break {s : String} (h : IsName s) : '\n' ∉ s.toList :=
  fun hmem => absurd (h.chars _ hmem) (by decide)

/-- What passes for an identifier is a name, or a name and a line break. -/
theorem isIdentifier_iff {s : String} :
    isIdentifier s = true ↔ IsName s ∨ ∃ name, IsName name ∧ s = name ++ "\n" := by
  by_cases hend : s.toList.getLast? = some '\n'
  · obtain ⟨front, hfront⟩ := List.getLast?_eq_some_iff.mp hend
    have hchars : isIdentifier s = isNameChars front := by
      rw [isIdentifier, dropLineEnd, if_pos (beq_iff_eq.mpr hend), hfront, List.dropLast_concat]
    have hs : s = String.ofList front ++ "\n" :=
      String.toList_injective (by rw [hfront, String.toList_append, String.toList_ofList]; rfl)
    rw [hchars]
    constructor
    · exact fun h => .inr ⟨_, by rwa [IsName, String.toList_ofList], hs⟩
    · rintro (h | ⟨name, h, rfl⟩)
      · exact absurd (hfront ▸ List.mem_concat_self) h.no_line_break
      · rw [String.toList_append] at hfront
        exact List.append_cancel_right hfront ▸ h
  · have hchars : isIdentifier s = isNameChars s.toList := by
      rw [isIdentifier, dropLineEnd, if_neg (by simpa using hend)]
    rw [hchars]
    constructor
    · exact .inl
    · rintro (h | ⟨name, -, rfl⟩)
      · exact h
      · rw [String.toList_append] at hend
        exact absurd List.getLast?_concat hend

theorem point_notMem_of_isIdentifier {s : String} (h : isIdentifier s = true) : '.' ∉ s.toList := by
  have hpoint {name : String} (hname : IsName name) : '.' ∉ name.toList :=
    fun hmem => absurd (hname.chars _ hmem) (by decide)
  obtain hname | ⟨name, hname, rfl⟩ := isIdentifier_iff.mp h
  · exact hpoint hname
  · simpa using hpoint hname

theorem isName_iff_of_isIdentifier {s : String} (h : isIdentifier s = true) :
    IsName s ↔ '\n' ∉ s.toList := by
  refine ⟨IsName.no_line_break, fun hplain => ?_⟩
  rcases isIdentifier_iff.mp h with hname | ⟨name, -, rfl⟩
  · exact hname
  · rw [String.toList_append] at hplain
    exact absurd List.mem_concat_self hplain

/-- The word under way, if there is one. -/
def pending (word : List Char) : List String :=
  if word.isEmpty then [] else [String.ofList word]

/-- The tokens of characters behind the beginning of a word. Blanks only keep words apart. -/
def readTokens (word : List Char) : List Char → List String
  | [] => pending word
  | c :: rest =>
    if isNameRest c then readTokens (word ++ [c]) rest
    else pending word ++ (if c == ' ' then [] else [String.singleton c]) ++ readTokens [] rest

def tokens (s : String) : List String :=
  readTokens [] s.toList

theorem readTokens_apart {c : Char} (hc : isNameRest c = false) (word cs ds : List Char) :
    readTokens word (cs ++ c :: ds) = readTokens word cs ++ readTokens [] (c :: ds) := by
  -- The word under way is generalised, since it grows with each character of a name.
  induction cs generalizing word with
  | nil => simp [readTokens, hc, pending]
  | cons d cs ih =>
      rw [List.cons_append, readTokens, readTokens]
      split
      · exact ih (word ++ [d])
      · rw [ih [], List.append_assoc _ (readTokens [] cs)]

theorem readTokens_word (word : List Char) {cs : List Char} (h : ∀ c ∈ cs, isNameRest c = true) :
    readTokens word cs = pending (word ++ cs) := by
  induction cs generalizing word with
  | nil => rw [readTokens, List.append_nil]
  | cons c cs ih =>
      obtain ⟨hc, hcs⟩ := List.forall_mem_cons.mp h
      rw [readTokens, if_pos hc, ih (word ++ [c]) hcs, List.append_assoc, List.singleton_append]

theorem IsName.tokens {s : String} (h : IsName s) : tokens s = [s] := by
  rw [Text.tokens, readTokens_word [] h.chars, List.nil_append, pending,
    if_neg (by simpa using h.ne_nil), String.ofList_toList]

/-- The text begins with a character that no name has. -/
def beginsApart (s : String) : Bool :=
  s.toList.head?.any fun c => !isNameRest c

/-- The text ends with a character that no name has. -/
def endsApart (s : String) : Bool :=
  s.toList.getLast?.any fun c => !isNameRest c

theorem beginsApart_append {s : String} (h : beginsApart s = true) (t : String) :
    beginsApart (s ++ t) = true := by
  unfold beginsApart at h ⊢
  rw [String.toList_append]
  cases hs : s.toList with
  | nil => rw [hs] at h; cases h
  | cons c rest => rw [hs] at h; exact h

theorem endsApart_append (s : String) {t : String} (h : endsApart t = true) :
    endsApart (s ++ t) = true := by
  unfold endsApart at h ⊢
  rw [String.toList_append, List.getLast?_append]
  cases ht : t.toList.getLast? with
  | none => rw [ht] at h; cases h
  | some c => rw [ht] at h; exact h

/-- Two texts are read one after the other where the second does not go on with a name. -/
theorem tokens_append_begins (s : String) {t : String} (h : beginsApart t = true) :
    tokens (s ++ t) = tokens s ++ tokens t := by
  unfold beginsApart at h
  unfold tokens
  cases ht : t.toList with
  | nil => rw [ht] at h; cases h
  | cons c rest =>
      rw [ht] at h
      rw [String.toList_append, ht, readTokens_apart (by simpa using h)]

theorem tokens_append_ends {s : String} (h : endsApart s = true) (t : String) :
    tokens (s ++ t) = tokens s ++ tokens t := by
  obtain ⟨c, hlast, hc⟩ := (Option.any_eq_true _ _).mp h
  obtain ⟨front, hfront⟩ := List.getLast?_eq_some_iff.mp hlast
  have hapart : isNameRest c = false := by simpa using hc
  have hmark (ds : List Char) : readTokens [] (c :: ds) = readTokens [] [c] ++ readTokens [] ds := by
    simp [readTokens, hapart, pending]
  unfold tokens
  rw [String.toList_append, hfront, List.append_assoc, List.singleton_append,
    readTokens_apart hapart, readTokens_apart hapart [] front [], hmark, List.append_assoc]

/-- Wherever it stands between other characters than those of names, the text is read as one token. -/
def SingleToken (s : String) : Prop :=
  ∀ before after, endsApart before = true → beginsApart after = true →
    tokens (before ++ s ++ after) = tokens before ++ s :: tokens after

theorem IsName.singleToken {s : String} (h : IsName s) : SingleToken s := by
  intro before after hbefore hafter
  rw [tokens_append_begins _ hafter, tokens_append_ends hbefore, h.tokens, List.append_assoc]
  rfl

/-- Tokens with commas between them. -/
def commas (parts : List (List String)) : List String :=
  [","].intercalate parts

theorem commas_cons_cons (p q : List String) (rest : List (List String)) :
    commas (p :: q :: rest) = p ++ "," :: commas (q :: rest) := by
  rw [commas, List.intercalate_cons_cons, List.append_assoc]
  rfl

/-- Parts are read one by one, whatever they hold. -/
theorem tokens_join (parts : List String) : tokens (join ", " parts) = commas (parts.map tokens) := by
  induction parts with
  | nil => rfl
  | cons p rest ih =>
      cases rest with
      | nil => simp [join, commas]
      | cons q rest =>
          rw [join_cons, String.append_assoc, tokens_append_begins p (beginsApart_append (by decide) _),
            tokens_append_ends (by decide), ih]
          simp [commas, List.intercalate_cons_cons, show tokens ", " = [","] by decide]

theorem tokens_names {names : List String} (h : ∀ n ∈ names, IsName n) :
    tokens (join ", " names) = commas (names.map fun n => [n]) := by
  rw [tokens_join, List.map_congr_left fun n hn => (h n hn).tokens]

end TableLoom.Text
