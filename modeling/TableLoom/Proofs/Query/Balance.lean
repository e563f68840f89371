import TableLoom.Proofs.Query.Clauses
import TableLoom.Proofs.Query.Tokens

/-!
Text whose quotes and parentheses are closed where they should be. Statements made of such text are
such text, and its tokens open no parenthesis that they do not close.
-/

namespace TableLoom.Query

/-- Quotes and parentheses. -/
def isBracket (c : Char) : Bool :=
  Lexing.isQuote c || c == '(' || c == ')'

inductive BalancedText : List Char → Prop
  | nil : BalancedText []
  | plain {c : Char} : isBracket c = false → BalancedText [c]
  | quoted {q : Char} {cs : List Char} : Lexing.isQuote q = true → q ∉ cs →
      BalancedText (q :: cs ++ [q])
  | enclosed {cs : List Char} : BalancedText cs → BalancedText ('(' :: cs ++ [')'])
  | append {cs ds : List Char} : BalancedText cs → BalancedText ds → BalancedText (cs ++ ds)

namespace BalancedText

theorem of_plain {cs : List Char} (h : ∀ c ∈ cs, isBracket c = false) : BalancedText cs := by
  induction cs with
  | nil => exact .nil
  | cons c cs ih =>
      have hrest := ih fun d hd => h d (List.mem_cons_of_mem c hd)
      exact .append (.plain (h c List.mem_cons_self)) hrest

end BalancedText

theorem not_bracket_placeholder {n : Nat} {c : Char} (h : c ∈ (Statement.placeholder n).toList) :
    isBracket c = false := by
  rw [toList_placeholder] at h
  rcases List.mem_cons.mp h with rfl | hdigit
  · rfl
  · have hc := isDigit_of_mem_number hdigit
    have hne : ∀ d, d.isDigit = false → (c == d) = false := by
      rintro d hd
      rw [beq_eq_false_iff_ne]
      rintro rfl
      rw [hc] at hd
      cases hd
    simp [isBracket, Lexing.isQuote, hne '\'' rfl, hne '"' rfl, hne '(' rfl, hne ')' rfl]

theorem not_bracket_of_plain {c : Char} (h : isPlain c = true) : isBracket c = false := by
  simp only [isPlain, Bool.and_eq_true, bne_iff_ne] at h
  simp [isBracket, Lexing.isQuote, h]

theorem balanced_of_free {cs : List Char} (h : cs.any isBracket = false) : BalancedText cs :=
  .of_plain fun c hc => Bool.eq_false_iff.mpr (List.any_eq_false.mp h c hc)

theorem balanced_of_plain {cs : List Char} (h : cs.all isPlain = true) : BalancedText cs :=
  .of_plain fun c hc => not_bracket_of_plain (List.all_eq_true.mp h c hc)

theorem mem_numbered_fill {c : Char} {cs : List Char} {vs : List Value} {n : Nat}
    (h : c ∈ numbered n (fill cs vs)) : c ∈ cs ∨ isBracket c = false := by
  induction cs generalizing vs n with
  | nil => cases h
  | cons d cs ih =>
      have hskip : c ∈ d :: numbered n (fill cs vs) → c ∈ d :: cs ∨ isBracket c = false := by
        intro hmem
        rcases List.mem_cons.mp hmem with rfl | hrest
        · exact .inl List.mem_cons_self
        · exact (ih hrest).imp_left (List.mem_cons_of_mem d)
      cases vs with
      | nil => exact hskip h
      | cons v vs =>
          rw [fill] at h
          split at h
          · rcases List.mem_append.mp h with hplace | hrest
            · exact .inr (not_bracket_placeholder hplace)
            · exact (ih hrest).imp_left (List.mem_cons_of_mem d)
          · exact hskip h

theorem fill_split (cs ds : List Char) (vs : List Value) :
    fill (cs ++ ds) vs = fill cs vs ++ fill ds (vs.drop (cs.count '?')) := by
  induction cs generalizing vs with
  | nil => rfl
  | cons c cs ih =>
      rw [List.cons_append]
      by_cases hc : c = '?'
      · subst hc
        rw [List.count_cons_self]
        cases vs with
        | nil => simpa [fill] using ih []
        | cons v vs => simpa [fill_place] using ih vs
      · rw [fill_skip hc, fill_skip hc, ih, List.count_cons_of_ne hc, List.cons_append]

theorem numbered_fill_wrapped {a b : Char} (ha : a ≠ '?') (hb : b ≠ '?') (cs : List Char)
    (vs : List Value) (n : Nat) :
    numbered n (fill (a :: cs ++ [b]) vs) = a :: numbered n (fill cs vs) ++ [b] := by
  rw [List.cons_append, fill_skip ha, fill_split, fill_skip hb, numbered, numbered_append]
  rfl

theorem balanced_fill {cs : List Char} (h : BalancedText cs) (vs : List Value) (n : Nat) :
    BalancedText (numbered n (fill cs vs)) := by
  induction h generalizing vs n with
  | nil => exact .nil
  | @plain c hc =>
      refine .of_plain fun d hd => ?_
      rcases mem_numbered_fill hd with hmem | hplain
      · rwa [List.mem_singleton.mp hmem]
      · exact hplain
  | @quoted q cs hq hcs =>
      have hplace : q ≠ '?' := by
        rintro rfl
        cases hq
      rw [numbered_fill_wrapped hplace hplace]
      refine .quoted hq fun hmem => ?_
      rcases mem_numbered_fill hmem with hmem | hplain
      · exact hcs hmem
      · rw [isBracket, hq] at hplain
        cases hplain
  | @enclosed cs _ ih =>
      rw [numbered_fill_wrapped (by decide) (by decide)]
      exact .enclosed (ih vs n)
  | append _ _ ihc ihd =>
      rw [fill_split, numbered_append]
      exact .append (ihc vs n) (ihd _ _)

namespace Lexing

theorem nest_of_not_bracket {c : Char} (h : isBracket c = false) (d : Nat) :
    Token.nest d (.mark c) = some d := by
  unfold Token.nest
  split
  · next heq =>
      rw [Token.mark.inj heq] at h
      cases h
  · next heq =>
      rw [Token.mark.inj heq] at h
      cases h
  · rfl

theorem start_plain {c : Char} (h : isBracket c = false) :
    (start c).2.isQuoted = false ∧ ∀ d, balance d (start c).1 = some d := by
  have hquote : isQuote c = false := by
    rw [isBracket, Bool.or_eq_false_iff, Bool.or_eq_false_iff] at h
    exact h.1.1
  simp only [start, hquote, Bool.false_eq_true, ↓reduceIte]
  split
  · exact ⟨rfl, fun _ => rfl⟩
  · split
    · exact ⟨rfl, fun _ => rfl⟩
    · exact ⟨rfl, fun d => by simp [balance, nest_of_not_bracket h]⟩

theorem step_plain {s : Lexing} (open_ : s.isQuoted = false) {c : Char} (h : isBracket c = false) :
    (s.step c).2.isQuoted = false ∧ ∀ d, balance d (s.step c).1 = some d := by
  obtain ⟨hopen, hbalance⟩ := start_plain h
  cases s with
  | blank => exact ⟨hopen, hbalance⟩
  | word ws =>
      rw [step]
      split
      · exact ⟨rfl, fun _ => rfl⟩
      · exact ⟨hopen, hbalance⟩
  | quoted q ws => cases open_

theorem through_quoted {q : Char} {cs : List Char} (h : q ∉ cs) (ws : List Char) :
    (quoted q ws).emitted cs = [] ∧ (quoted q ws).after cs = quoted q (ws ++ cs) := by
  induction cs generalizing ws with
  | nil => exact ⟨rfl, by rw [List.append_nil, after_nil]⟩
  | cons c cs ih =>
      rw [List.mem_cons, not_or] at h
      have hstep : (quoted q ws).step c = ([], quoted q (ws ++ [c])) := by
        simp [step, Ne.symm h.1]
      rw [emitted_cons, after_cons, hstep]
      simpa using ih h.2 (ws ++ [c])

theorem emitted_quoted {q : Char} (hq : isQuote q = true) {cs : List Char} (h : q ∉ cs)
    {s : Lexing} (open_ : s.isQuoted = false) :
    s.emitted (q :: cs ++ [q]) = s.flush ++ [.quoted q cs] ∧ s.after (q :: cs ++ [q]) = blank := by
  have hrun := not_run_of_quote hq
  have hstep : s.step q = (s.flush, quoted q []) := by
    rw [step_apart open_ hrun]
    simp [start, hrun, hq]
  obtain ⟨hemitted, hafter⟩ := through_quoted h []
  rw [List.cons_append, emitted_cons, after_cons, hstep, emitted_append, after_append, hemitted,
    hafter]
  simp [emitted, after, step]

end Lexing

/-- Outside quotes, balanced text leads out of quotes and parentheses again. -/
theorem BalancedText.emitted {cs : List Char} (h : BalancedText cs) {s : Lexing}
    (open_ : s.isQuoted = false) :
    (s.after cs).isQuoted = false ∧ ∀ d, balance d (s.emitted cs) = some d := by
  induction h generalizing s with
  | nil => exact ⟨open_, fun _ => rfl⟩
  | @plain c hc =>
      obtain ⟨hopen, hbalance⟩ := Lexing.step_plain open_ hc
      refine ⟨hopen, fun d => ?_⟩
      rw [Lexing.emitted_cons, Lexing.emitted_nil, List.append_nil, hbalance]
  | quoted hq hcs =>
      obtain ⟨hemitted, hafter⟩ := Lexing.emitted_quoted hq hcs open_
      rw [hemitted, hafter]
      refine ⟨rfl, fun d => ?_⟩
      rw [balance_append, Lexing.balance_flush]
      rfl
  | @enclosed cs _ ih =>
      obtain ⟨hopen, hbalance⟩ := ih (s := .blank) rfl
      have hleft := Lexing.step_apart open_ (c := '(') (by decide)
      have hright := Lexing.step_apart hopen (c := ')') (by decide)
      rw [List.cons_append, Lexing.after_cons, Lexing.emitted_cons, hleft]
      change (Lexing.blank.after (cs ++ [')'])).isQuoted = false ∧
        ∀ d, balance d (s.flush ++ [.mark '('] ++ Lexing.blank.emitted (cs ++ [')'])) = some d
      rw [Lexing.after_append, Lexing.emitted_append, Lexing.after_cons, Lexing.emitted_cons, hright]
      refine ⟨rfl, fun d => ?_⟩
      rw [balance_append, balance_append, Lexing.balance_flush]
      change balance (d + 1) (Lexing.blank.emitted cs ++ _) = some d
      rw [balance_append, hbalance, Option.bind_some, balance_append, balance_append,
        Lexing.balance_flush]
      rfl
  | append _ _ ihc ihd =>
      obtain ⟨hopen, hbalance⟩ := ihc open_
      obtain ⟨hopen', hbalance'⟩ := ihd hopen
      rw [Lexing.after_append, Lexing.emitted_append]
      refine ⟨hopen', fun d => ?_⟩
      rw [balance_append, hbalance, Option.bind_some, hbalance']

theorem BalancedText.ends_open {cs : List Char} (h : BalancedText cs) :
    (Lexing.blank.after cs).isQuoted = false :=
  (h.emitted rfl).1

theorem BalancedText.balance_tokens {cs : List Char} (h : BalancedText cs) (d : Nat) :
    balance d (tokens cs) = some d := by
  rw [tokens, balance_append, (h.emitted rfl).2, Option.bind_some, Lexing.balance_flush]

/-- Text that is balanced from whichever number on its placeholders are numbered. -/
def Texture.balanced : Texture where
  firm ms := ∀ n, BalancedText (numbered n ms)
  loose ms := ∀ n, BalancedText (numbered n ms)
  label cs := BalancedText cs ∧ '"' ∉ cs
  loose_of_firm h := h
  firm_nil _ := .nil
  firm_append hx hy n := by
    rw [numbered_append]
    exact .append (hx n) (hy _)
  loose_append hx hy n := by
    rw [numbered_append]
    exact .append (hx n) (hy _)
  glued h hx n := by
    rw [numbered_append, numbered_chars]
    exact .append (balanced_of_plain (plain_of_glue h)) (hx _)
  enclosed {xs} h n := by
    have hnumbered : numbered n (.char '(' :: xs ++ [.char ')']) = '(' :: numbered n xs ++ [')'] := by
      simp [numbered, numbered_append]
    rw [hnumbered]
    exact .enclosed (h n)
  loose_plain h n := by
    rw [numbered_chars]
    exact balanced_of_plain h
  loose_label h n := by
    rw [numbered_chars]
    exact h.1
  quoted_label h n := by
    rw [numbered_chars]
    exact .quoted rfl h.2
  quoted_list n := by
    rw [numbered_chars]
    exact @BalancedText.quoted '\'' "[]".toList rfl (by decide)

theorem slot_balanced (v : Value) : Texture.balanced.firm [.value v] := by
  intro n
  have hplace : BalancedText (Statement.placeholder n).toList :=
    .of_plain fun _ => not_bracket_placeholder
  simpa [numbered] using hplace

theorem fits_balanced {call : Call} (labels : ∀ s ∈ call.labels, '"' ∉ s.toList)
    (balanced : ∀ s ∈ call.rawTexts, BalancedText s.toList) : call.Fits Texture.balanced := by
  refine fits_of_rawTexts slot_balanced (fun {cs} h vs n => ?_) (fun s hs => ?_) fun s hs n => ?_
  · have hcs := h 0
    rw [numbered_chars] at hcs
    exact balanced_fill hcs vs n
  · exact ⟨balanced s (call.labels_subset hs), labels s hs⟩
  · rw [numbered_chars]
    exact balanced s hs

end TableLoom.Query
