import TableLoom.Proofs.Query.Marks
import TableLoom.Proofs.Query.PlainText
import TableLoom.Proofs.Query.Tokens

/-!
The search for alternatives in a text finds every token that is one. It may find more, in quotes or
inside a name, and whatever the placeholders of the text are numbered from, it finds the same.
-/

namespace TableLoom.Query

/-- Text whose last character is no part of a word. -/
def EndsApart (cs : List Char) : Prop :=
  ∀ c ∈ cs.getLast?, Lexing.isRun c = false

theorem endsApart_concat {c : Char} (h : Lexing.isRun c = false) (cs : List Char) :
    EndsApart (cs ++ [c]) := by
  intro d hd
  rw [List.getLast?_concat] at hd
  exact Option.some.inj hd ▸ h

namespace Lexing

/-- What the token under way says about the text before it. -/
def Behind (cs : List Char) : Lexing → Prop
  | blank => EndsApart cs
  | word ws => ∃ before, cs = before ++ ws ∧ EndsApart before
  | quoted q _ => isQuote q = true

theorem behind_start {cs : List Char} {c : Char} (h : isRun c = true → EndsApart cs) :
    (start c).2.Behind (cs ++ [c]) := by
  unfold start
  split
  · next hrun => exact ⟨cs, rfl, h hrun⟩
  · next hrun =>
      have hapart := endsApart_concat (Bool.eq_false_iff.mpr hrun) cs
      split
      · next hquote => exact hquote
      · split
        · exact hapart
        · exact hapart

theorem behind_step {cs : List Char} {s : Lexing} (h : s.Behind cs) (c : Char) :
    (s.step c).2.Behind (cs ++ [c]) := by
  cases s with
  | blank => exact behind_start fun _ => h
  | word ws =>
      obtain ⟨before, rfl, hbefore⟩ := h
      rw [step]
      split
      · exact ⟨before, List.append_assoc before ws [c], hbefore⟩
      · next hrun => exact behind_start fun hc => absurd hc hrun
  | quoted q ws =>
      rw [step]
      split
      · next hc =>
          rw [beq_iff_eq] at hc
          exact endsApart_concat (hc ▸ not_run_of_quote h) cs
      · exact h

theorem word_of_mem_step {s : Lexing} {c : Char} {w : List Char} (h : .word w ∈ (s.step c).1) :
    s = word w ∧ isRun c = false := by
  have hstart : Token.word w ∉ (start c).1 := by
    unfold start
    split
    · simp
    · split
      · simp
      · split <;> simp
  cases s with
  | blank => exact absurd h hstart
  | word ws =>
      rw [step] at h
      split at h
      · cases h
      · next hrun =>
          rcases List.mem_cons.mp h with heq | hmem
          · rw [Token.word.inj heq]
            exact ⟨rfl, Bool.eq_false_iff.mpr hrun⟩
          · exact absurd hmem hstart
  | quoted q ws =>
      rw [step] at h
      split at h <;> simp at h

theorem word_occurs {cs : List Char} {s : Lexing} (seen : List Char) (h : s.Behind seen)
    {w : List Char} (hw : .word w ∈ s.emitted cs ++ (s.after cs).flush) :
    ∃ before after, seen ++ cs = before ++ w ++ after ∧ EndsApart before ∧
      ∀ c ∈ after.head?, isRun c = false := by
  induction cs generalizing s seen with
  | nil =>
      have hs : s = word w := by
        cases s <;> simp_all [flush]
      subst hs
      obtain ⟨before, rfl, hbefore⟩ := h
      exact ⟨before, [], rfl, hbefore, by simp⟩
  | cons c cs ih =>
      rw [emitted_cons, after_cons, List.append_assoc] at hw
      rcases List.mem_append.mp hw with hstep | hrest
      · obtain ⟨rfl, hc⟩ := word_of_mem_step hstep
        obtain ⟨before, rfl, hbefore⟩ := h
        exact ⟨before, c :: cs, rfl, hbefore, by simpa using hc⟩
      · have hfound := ih (seen ++ [c]) (behind_step h c) hrest
        simpa using hfound

end Lexing

/-- A word among the tokens of a text stands in it, apart from all else that words are made of. -/
theorem word_of_mem_tokens {cs w : List Char} (h : .word w ∈ tokens cs) :
    ∃ before after, cs = before ++ w ++ after ∧ EndsApart before ∧
      ∀ c ∈ after.head?, Lexing.isRun c = false :=
  Lexing.word_occurs [] (by simp [Lexing.Behind, EndsApart]) h

/-- Whether a character begins the word `or`. -/
def beginsOr (afterWord : Bool) (o : Char) : List Char → Bool
  | r :: rest =>
    !afterWord && (o == 'o' || o == 'O') && (r == 'r' || r == 'R') && !(rest.head?.any Text.isWord)
  | [] => false

theorem mentionsOrFrom_cons (afterWord : Bool) (c : Char) (cs : List Char) :
    mentionsOrFrom afterWord (c :: cs) =
      (beginsOr afterWord c cs || mentionsOrFrom (Text.isWord c) cs) := by
  cases cs with
  | nil => rfl
  | cons d cs => rfl

/-- Only what comes last before a text decides whether the text may begin with `or`. -/
theorem mentionsOrFrom_append (afterWord : Bool) {xs ys : List Char}
    (h : mentionsOrFrom (xs.getLast?.elim afterWord Text.isWord) ys = true) :
    mentionsOrFrom afterWord (xs ++ ys) = true := by
  induction xs generalizing afterWord with
  | nil => exact h
  | cons x xs ih =>
      rw [List.cons_append, mentionsOrFrom_cons, Bool.or_eq_true]
      refine .inr (ih _ ?_)
      cases xs with
      | nil => exact h
      | cons y xs =>
          have hlast := List.getLast?_eq_some_getLast (List.cons_ne_nil y xs)
          rw [List.getLast?_cons_cons, hlast] at h
          rw [hlast]
          exact h

/-- A character is the letter that it becomes in lower case, or the capital of it. -/
theorem val_of_toLower {c d : Char} (h : c.toLower = d) : c = d ∨ c.val = d.val - 32 := by
  unfold Char.toLower at h
  split at h
  · rw [← h]
    exact .inr (UInt32.add_sub_cancel c.val 32).symm
  · exact .inl h

theorem letters_of_is_or {w : List Char} (h : (Token.word w).is "or" = true) :
    ∃ o r, w = [o, r] ∧ (o == 'o' || o == 'O') = true ∧ (r == 'r' || r == 'R') = true := by
  have hlower : w.map Char.toLower = ['o', 'r'] := beq_iff_eq.mp h
  have hcase : ∀ {c d u : Char}, c.toLower = d → d.val - 32 = u.val → (c == d || c == u) = true := by
    intro c d u hc hu
    rw [Bool.or_eq_true, beq_iff_eq, beq_iff_eq]
    exact (val_of_toLower hc).imp_right fun hval => Char.ext (hval.trans hu)
  obtain ⟨o, rest, rfl, ho, hrest⟩ := List.map_eq_cons_iff.mp hlower
  obtain ⟨r, none_, rfl, hr, hnone⟩ := List.map_eq_cons_iff.mp hrest
  obtain rfl := List.map_eq_nil_iff.mp hnone
  exact ⟨o, r, rfl, hcase ho rfl, hcase hr rfl⟩

/-- A token that is an alternative is found. -/
theorem mentionsOrFrom_of_token {cs : List Char} {t : Token} (hmem : t ∈ tokens cs)
    (h : t.is "or" = true) : mentionsOrFrom false cs = true := by
  cases t with
  | quoted q ws => cases h
  | mark c => cases h
  | word w =>
      obtain ⟨before, after, rfl, hbefore, hafter⟩ := word_of_mem_tokens hmem
      obtain ⟨o, r, rfl, ho, hr⟩ := letters_of_is_or h
      have hword : ∀ c, Lexing.isRun c = false → Text.isWord c = false := fun c hc =>
        (Bool.or_eq_false_iff.mp hc).1
      rw [List.append_assoc]
      refine mentionsOrFrom_append false ?_
      have hapart : before.getLast?.elim false Text.isWord = false := by
        cases hlast : before.getLast? with
        | none => rfl
        | some c => exact hword c (hbefore c hlast)
      have hend : after.head?.any Text.isWord = false := by
        cases hhead : after.head? with
        | none => rfl
        | some c => exact hword c (hafter c hhead)
      rw [hapart]
      change mentionsOrFrom false (o :: (r :: after)) = true
      rw [mentionsOrFrom_cons, beginsOr, ho, hr, hend]
      rfl

theorem isWord_of_isDigit {c : Char} (h : c.isDigit = true) : Text.isWord c = true := by
  have hsmall : c.toNat < 128 := Nat.lt_of_le_of_lt (Text.toNat_of_isDigit h).2 (by decide)
  rw [Text.isWord, if_pos hsmall, Text.isPlainWord, Char.isAlphanum, h, Bool.or_true, Bool.true_or]

theorem mentionsOrFrom_skip (afterWord : Bool) {c : Char} (h : (c == 'o' || c == 'O') = false)
    (cs : List Char) : mentionsOrFrom afterWord (c :: cs) = mentionsOrFrom (Text.isWord c) cs := by
  have hbegins : beginsOr afterWord c cs = false := by
    cases cs <;> simp [beginsOr, h]
  rw [mentionsOrFrom_cons, hbegins, Bool.false_or]

theorem mentionsOrFrom_digits (afterWord : Bool) {ds : List Char} (hne : ds ≠ [])
    (h : ∀ d ∈ ds, d.isDigit = true) (cs : List Char) :
    mentionsOrFrom afterWord (ds ++ cs) = mentionsOrFrom true cs := by
  induction ds generalizing afterWord with
  | nil => exact absurd rfl hne
  | cons d ds ih =>
      have hd := h d List.mem_cons_self
      have hother : (d == 'o' || d == 'O') = false := by
        rw [Bool.or_eq_false_iff, beq_eq_false_iff_ne, beq_eq_false_iff_ne]
        constructor <;> rintro rfl <;> cases hd
      rw [List.cons_append, mentionsOrFrom_skip afterWord hother, isWord_of_isDigit hd]
      cases ds with
      | nil => rfl
      | cons e ds => exact ih true (List.cons_ne_nil e ds) fun x hx => h x (List.mem_cons_of_mem d hx)

theorem mentionsOrFrom_placeholder (afterWord : Bool) (n : Nat) (cs : List Char) :
    mentionsOrFrom afterWord ((Statement.placeholder n).toList ++ cs) = mentionsOrFrom true cs := by
  rw [toList_placeholder, List.cons_append, mentionsOrFrom_skip afterWord (by decide)]
  exact mentionsOrFrom_digits _ Nat.toDigits_ne_nil (fun _ => isDigit_of_mem_number) cs

/-- Whatever the placeholders are numbered from, the same alternatives are found. -/
theorem mentionsOrFrom_numbered (afterWord : Bool) (n m : Nat) (ms : List Mark) :
    mentionsOrFrom afterWord (numbered n ms) = mentionsOrFrom afterWord (numbered m ms) := by
  induction ms generalizing afterWord n m with
  | nil => rfl
  | cons x ms ih =>
      cases x with
      | value v =>
          rw [numbered, numbered, mentionsOrFrom_placeholder, mentionsOrFrom_placeholder]
          exact ih true (n + 1) (m + 1)
      | char c =>
          have hbegins : beginsOr afterWord c (numbered n ms) =
              beginsOr afterWord c (numbered m ms) := by
            -- Two characters are looked at, and placeholders all begin with the same.
            cases ms with
            | nil => rfl
            | cons y ms =>
                cases y with
                | value v => simp [numbered, toList_placeholder, beginsOr]
                | char d =>
                    cases ms with
                    | nil => rfl
                    | cons z ms =>
                        cases z with
                        | char e => rfl
                        | value v => simp [numbered, toList_placeholder, beginsOr]
          rw [numbered, numbered, mentionsOrFrom_cons, mentionsOrFrom_cons, hbegins,
            ih (Text.isWord c) n m]

/-- Where no alternative is found, no token is one. -/
theorem single_of_unmentioned {ps : List Piece} (h : mentionsOr (sqlFrom 1 ps) = false) (n : Nat) :
    ∀ t ∈ tokens (numbered n (marks ps)), t.is "or" = false := by
  intro t ht
  rw [Bool.eq_false_iff]
  intro his
  have hfound := mentionsOrFrom_of_token ht his
  rw [mentionsOrFrom_numbered false n 1, ← toList_sqlFrom] at hfound
  rw [mentionsOr, hfound] at h
  cases h

end TableLoom.Query
