import TableLoom.Json.Reader

/-!
How deep reading can get. A text is too deep only if it has more than `deepest` opening brackets, well
formed or not.
-/

namespace TableLoom.Json

def isOpening (c : Char) : Bool :=
  c == '[' || c == '\x7b'

/-- The number of opening brackets, those inside of texts too. -/
def openings (cs : List Char) : Nat :=
  cs.countP isOpening

/-- A step of reading stays within the characters it was given, and finds them too deep only if their
brackets take the depth past the limit. -/
inductive Within {α : Type} (depth : Nat) (cs : List Char) : Except Stop (α × List Char) → Prop
  | read {a : α} {rest : List Char} (suffix : rest <:+ cs) : Within depth cs (.ok (a, rest))
  | stop {s : Stop} (deep : s.fault = .tooDeep → deepest < depth + openings cs) :
      Within depth cs (.error s)

section

variable {α β : Type} {depth : Nat} {cs cs' : List Char} {x : Except Stop (α × List Char)}

theorem openings_le_of_suffix (h : cs' <:+ cs) : openings cs' ≤ openings cs :=
  h.sublist.countP_le

theorem Within.mono (h : Within depth cs' x) (hsuffix : cs' <:+ cs) : Within depth cs x := by
  cases h with
  | read suffix => exact .read (suffix.trans hsuffix)
  | stop deep =>
    have := openings_le_of_suffix hsuffix
    exact .stop fun h => by have := deep h; omega

theorem Within.bind {f : α × List Char → Except Stop (β × List Char)} (h : Within depth cs x)
    (hf : ∀ a rest, rest <:+ cs → Within depth cs (f (a, rest))) : Within depth cs (x >>= f) := by
  cases h with
  | read suffix => exact hf _ _ suffix
  | stop deep => exact .stop deep

theorem Within.map {f : α → β} (h : Within depth cs x) :
    Within depth cs (x.map fun (a, r) => (f a, r)) := by
  cases h with
  | read suffix => exact .read suffix
  | stop deep => exact .stop deep

theorem Within.stopped {fault : Fault} {left : Nat} (h : fault ≠ .tooDeep) :
    Within depth cs (.error ⟨fault, left⟩ : Except Stop (α × List Char)) :=
  .stop fun heq => absurd heq h

/-! ### Parts without brackets -/

theorem skipBlank_suffix (cs : List Char) : skipBlank cs <:+ cs :=
  List.dropWhile_suffix _

theorem within_readText (start : Nat) (acc cs : List Char) :
    Within depth cs (readText start acc cs) := by
  fun_induction readText start acc cs with
  | case1 | case3 | case4 | case5 | case7 | case9 | case10 => exact .stopped (by decide)
  | case2 => exact .read (List.suffix_cons _ _)
  | case6 acc a b c d next rest _ _ _ taken _ ih =>
    exact ih.mono ((List.drop_suffix _ _).trans (List.suffix_append ['\\', 'u', a, b, c, d] _))
  | case8 _ c rest _ _ _ _ ih => exact ih.mono (List.suffix_append ['\\', c] rest)
  | case11 _ _ _ _ _ _ _ _ _ ih => exact ih.mono (List.suffix_cons _ _)

theorem digits_suffix (cs : List Char) : (Decimal.digits cs).2 <:+ cs :=
  List.dropWhile_suffix _

theorem whole_suffix (cs : List Char) : (whole cs).2 <:+ cs := by
  fun_cases whole cs with
  | case1 rest => exact List.suffix_cons _ _
  | case2 => exact digits_suffix _

theorem fraction_suffix (cs : List Char) : (fraction cs).2 <:+ cs := by
  fun_cases fraction cs with
  | case1 rest => exact List.suffix_rfl
  | case2 rest => exact (digits_suffix _).trans (List.suffix_cons _ _)
  | case3 => exact List.suffix_rfl

theorem exponent_suffix (cs : List Char) : (Decimal.exponent cs).2 <:+ cs := by
  fun_cases Decimal.exponent cs with
  | case1 | case3 | case4 => exact List.suffix_rfl
  | case2 c rest _ negative body hbody ds rest' hdigits =>
    have hbody : body <:+ rest := by
      split at hbody <;> obtain ⟨-, rfl⟩ := Prod.mk.inj hbody
      · exact List.suffix_cons _ _
      · exact List.suffix_cons _ _
      · exact List.suffix_rfl
    have hrest : rest' <:+ body := by simpa [hdigits] using digits_suffix body
    exact hrest.trans (hbody.trans (List.suffix_cons _ _))

theorem within_readNumber (cs : List Char) : Within depth cs (readNumber cs) := by
  fun_cases readNumber cs with
  | case1 | case2 => exact .stopped (by simp)
  | case3 negative body hbody ws r₁ hws _ fs r₂ hfs e r he
  | case4 negative body hbody ws r₁ hws _ fs r₂ hfs e r he =>
    have hbody : body <:+ cs := by
      split at hbody <;> obtain ⟨-, rfl⟩ := Prod.mk.inj hbody
      · exact List.suffix_cons _ _
      · exact List.suffix_rfl
    have h₁ : r₁ <:+ body := by simpa [hws] using whole_suffix body
    have h₂ : r₂ <:+ r₁ := by simpa [hfs] using fraction_suffix r₁
    have h₃ : r <:+ r₂ := by simpa [he] using exponent_suffix r₂
    exact .read (h₃.trans (h₂.trans (h₁.trans hbody)))

theorem word?_suffix {rest : List Char} {v : Value} (h : word? cs = some (v, rest)) :
    rest <:+ cs := by
  obtain ⟨⟨w, x⟩, -, hentry⟩ := List.exists_of_findSome?_eq_some h
  dsimp only at hentry
  split at hentry
  · obtain ⟨-, rfl⟩ := Prod.mk.inj (Option.some.inj hentry)
    exact List.drop_suffix _ _
  · simp at hentry

/-! ### Lists and maps -/

theorem openings_cons {c : Char} (h : isOpening c = true) :
    openings (c :: cs) = openings cs + 1 := by
  simp [openings, h]

/-- One bracket more accounts for one level more. -/
theorem Within.opened {c : Char} (hc : isOpening c = true) (hsuffix : cs' <:+ cs)
    (h : Within (depth + 1) cs' x) : Within depth (c :: cs) x := by
  cases h with
  | read suffix => exact .read (suffix.trans (hsuffix.trans (List.suffix_cons _ _)))
  | stop deep =>
    have := openings_le_of_suffix hsuffix
    have hopen : openings (c :: cs) = openings cs + 1 := openings_cons hc
    exact .stop fun h => by have := deep h; omega

/-- What the three readers keep to with some fuel. -/
structure Keeps (fuel : Nat) : Prop where
  value : ∀ depth cs, Within depth cs (readValue fuel depth cs)
  items : ∀ depth acc cs, Within depth cs (readItems fuel depth acc cs)
  entries : ∀ depth acc cs, Within depth cs (readEntries fuel depth acc cs)

theorem suffix_of_skipBlank {c : Char} {t : List Char} (h : skipBlank cs = c :: t) : t <:+ cs :=
  (List.suffix_cons c t).trans (h ▸ skipBlank_suffix cs)

theorem within_readValue {n : Nat} (h : ∀ m < n, Keeps m) (depth : Nat) (cs : List Char) :
    Within depth cs (readValue n depth cs) := by
  fun_cases readValue n depth cs with
  | case1 | case2 => exact .stopped (by decide)
  | case3 fuel c rest =>
    have hread : Within depth rest (readText (c :: rest).length [] rest) := within_readText _ _ _
    exact (hread.mono (List.suffix_cons _ _)).map
  | case4 fuel c rest _ hlimit =>
    have hopening : isOpening c = true := by
      simp_all [isOpening, or_comm]
    refine .stop fun _ => ?_
    rw [openings_cons hopening]
    simp at hlimit
    omega
  | case5 fuel c rest _ _ _ r hskip =>
    exact .read ((suffix_of_skipBlank hskip).trans (List.suffix_cons _ _))
  | case6 fuel c rest _ _ hc =>
    exact ((h fuel (Nat.lt_succ_self _)).entries _ _ _).opened (by simp_all [isOpening])
      (skipBlank_suffix _)
  | case7 fuel c rest _ _ _ _ r hskip =>
    exact .read ((suffix_of_skipBlank hskip).trans (List.suffix_cons _ _))
  | case8 fuel c rest _ _ _ hc =>
    exact ((h fuel (Nat.lt_succ_self _)).items _ _ _).opened (by simp_all [isOpening])
      (skipBlank_suffix _)
  | case9 fuel c rest _ _ _ _ found hfound =>
    rw [hfound]
    exact .read (word?_suffix hfound)
  | case10 fuel c rest _ _ _ _ hnone =>
    rw [hnone]
    exact within_readNumber _

theorem within_readItems {n : Nat} (h : ∀ m < n, Keeps m) (depth : Nat) (acc : List Value)
    (cs : List Char) : Within depth cs (readItems n depth acc cs) := by
  fun_cases readItems n depth acc cs with
  | case1 => exact .stopped (by decide)
  | case2 fuel =>
    have hkeeps := h fuel (Nat.lt_succ_self _)
    refine (hkeeps.value depth cs).bind fun v rest hrest => ?_
    dsimp only
    split
    · next r hskip => exact .read ((suffix_of_skipBlank hskip).trans hrest)
    · next r hskip =>
      exact (hkeeps.items _ _ _).mono
        ((skipBlank_suffix _).trans ((suffix_of_skipBlank hskip).trans hrest))
    · exact .stopped (by decide)

theorem within_readEntries {n : Nat} (h : ∀ m < n, Keeps m) (depth : Nat)
    (acc : List (Value × Value)) (cs : List Char) :
    Within depth cs (readEntries n depth acc cs) := by
  fun_cases readEntries n depth acc cs with
  | case1 | case3 => exact .stopped (by decide)
  | case2 fuel rest =>
    have hkeeps := h fuel (Nat.lt_succ_self _)
    refine ((within_readText _ _ rest).mono (List.suffix_cons _ _)).bind fun key rest' hrest => ?_
    dsimp only
    split
    · next r hskip =>
      have hvalue := (hkeeps.value depth (skipBlank r)).mono
        ((skipBlank_suffix _).trans ((suffix_of_skipBlank hskip).trans hrest))
      refine hvalue.bind fun v rest hrest => ?_
      dsimp only
      split
      · next r hskip => exact .read ((suffix_of_skipBlank hskip).trans hrest)
      · next r hskip =>
        exact (hkeeps.entries _ _ _).mono
          ((skipBlank_suffix _).trans ((suffix_of_skipBlank hskip).trans hrest))
      · exact .stopped (by decide)
    · exact .stopped (by decide)

theorem keeps (fuel : Nat) : Keeps fuel := by
  induction fuel using Nat.strongRecOn with
  | ind n ih => exact ⟨within_readValue ih, within_readItems ih, within_readEntries ih⟩

end

/-- A text that is refused as too deep has more opening brackets than may hold one another. -/
theorem deepest_lt_openings {cs : List Char} {stop : Stop} (h : readAll cs = .error stop)
    (hdeep : stop.fault = .tooDeep) : deepest < openings cs := by
  rw [readAll.eq_def] at h
  split at h
  · cases h
    simp at hdeep
  · have hread := ((keeps (2 * cs.length + 2)).value 0 (skipBlank cs)).mono (skipBlank_suffix _)
    generalize readValue (2 * cs.length + 2) 0 (skipBlank cs) = x at h hread
    cases hread with
    | stop deep =>
      cases h
      simpa using deep hdeep
    | @read v rest suffix =>
      dsimp only [bind, Except.bind] at h
      split at h
      · cases h
      · cases h
        simp at hdeep

end TableLoom.Json
