import TableLoom.Proofs.Query.Balance
import TableLoom.Proofs.Query.Disjunction
import TableLoom.Proofs.Query.SoftDeletion

/-!
Text that can stand among conditions without changing what they mean. Comparisons, subqueries and
aggregates become such text, and raw text does when it is a condition itself.
-/

namespace TableLoom.Query

/-- Text that closes what it opens, offers no alternative outside parentheses and leaves no range
open. -/
structure SteadyText (cs : List Char) : Prop where
  balanced : BalancedText cs
  steady : Steady (tokens cs)

theorem tokens_spaced (cs : List Char) : tokens (' ' :: cs) = tokens cs :=
  tokens_blank (by decide) (by decide) (by decide) cs

theorem toLower_of_isDigit {c : Char} (h : c.isDigit = true) : c.toLower = c := by
  have hbounds := Text.toNat_of_isDigit h
  unfold Char.toLower
  split
  · next hupper =>
      have hlow : 65 ≤ c.toNat := UInt32.le_iff_toNat_le.mp hupper.1
      omega
  · rfl

theorem inert_number (n : Nat) : (Token.word (Nat.toDigits 10 n)).isInert = true := by
  have hname : ∀ (c : Char) (cs : List Char) (name : String), name.toList = c :: cs →
      c.isDigit = false → (Token.word (Nat.toDigits 10 n)).is name = false := by
    intro c cs name hlist hc
    rw [Token.is, beq_eq_false_iff_ne, hlist]
    intro heq
    obtain ⟨d, rest, hdigits, hd, -⟩ := List.map_eq_cons_iff.mp heq
    have hdigit := isDigit_of_mem_number (hdigits ▸ List.mem_cons_self)
    rw [toLower_of_isDigit hdigit] at hd
    rw [← hd, hdigit] at hc
    cases hc
  simp [Token.isInert, hname 'a' _ "and" rfl rfl, hname 'o' _ "or" rfl rfl,
    hname 'b' _ "between" rfl rfl]

theorem inert_placeholder (n : Nat) :
    (tokens (Statement.placeholder n).toList).all Token.isInert = true := by
  have hrun : ∀ c ∈ Nat.toDigits 10 n, Lexing.isRun c = true := fun c hc => by
    rw [Lexing.isRun, isWord_of_isDigit (isDigit_of_mem_number hc), Bool.true_or]
  rw [toList_placeholder, tokens_mark (by decide) (by decide) (by decide),
    tokens_word Nat.toDigits_ne_nil hrun, List.all_cons, List.all_cons, inert_number]
  rfl

namespace SteadyText

theorem of_inert {cs : List Char} (balanced : BalancedText cs)
    (inert : (tokens cs).all Token.isInert = true) : SteadyText cs :=
  ⟨balanced, steady_inert inert⟩

theorem enclosed {cs : List Char} (h : BalancedText cs) : SteadyText ('(' :: cs ++ [')']) := by
  refine ⟨.enclosed h, ?_⟩
  rw [tokens_enclosed h.ends_open]
  exact steady_enclosed (h.balance_tokens 0)

/-- Text behind which a character stands that is no part of a word. -/
theorem append {cs ds : List Char} {c : Char} (hc : Lexing.isRun c = false) (h : SteadyText cs)
    (h' : SteadyText (c :: ds)) : SteadyText (cs ++ c :: ds) := by
  refine ⟨.append h.balanced h'.balanced, ?_⟩
  rw [tokens_append h.balanced.ends_open hc]
  exact .append (h.balanced.balance_tokens 0) h.steady h'.steady

theorem spaced {cs ds : List Char} (h : SteadyText cs) (h' : SteadyText ds) :
    SteadyText (cs ++ ' ' :: ds) := by
  refine .append (by decide) h ⟨?_, ?_⟩
  · exact @BalancedText.append [' '] ds (.plain rfl) h'.balanced
  · rw [tokens_spaced]
    exact h'.steady

theorem placeholder (n : Nat) : SteadyText (Statement.placeholder n).toList :=
  .of_inert (.of_plain fun _ => not_bracket_placeholder) (inert_placeholder n)

theorem range {op : Operator} (isRange : op = .between ∨ op = .notBetween) (n m : Nat) :
    SteadyText (op.sql.toList ++ ' ' :: ((Statement.placeholder n).toList ++ " AND ".toList
      ++ (Statement.placeholder m).toList)) := by
  have hop : BalancedText op.sql.toList :=
    balanced_of_plain (plain_of_glue (glue_operator op))
  have hlow := placeholder n
  have hhigh := placeholder m
  refine ⟨?_, ?_⟩
  · have hand : BalancedText " AND ".toList := balanced_of_free (by decide)
    have hbounds := BalancedText.append (.append hlow.balanced hand) hhigh.balanced
    exact .append hop (@BalancedText.append [' '] _ (.plain rfl) hbounds)
  · rw [tokens_append hop.ends_open (by decide), tokens_spaced,
      tokens_conjoined hlow.balanced.ends_open]
    have hrange : ∃ before t, tokens op.sql.toList = before ++ [t] ∧
        before.all Token.isInert = true ∧ t.is "between" = true := by
      rcases isRange with rfl | rfl
      · exact ⟨[], .word "BETWEEN".toList, by decide, by decide, by decide⟩
      · exact ⟨[.word "NOT".toList], .word "BETWEEN".toList, by decide, by decide, by decide⟩
    obtain ⟨before, t, htokens, hbefore, ht⟩ := hrange
    rw [htokens, List.append_assoc]
    exact steady_range hbefore ht (inert_placeholder n) rfl (inert_placeholder m)

theorem operator {op : Operator} (h : op ≠ .between) (h' : op ≠ .notBetween) :
    SteadyText op.sql.toList := by
  refine .of_inert (balanced_of_plain (plain_of_glue (glue_operator op))) ?_
  cases op <;> first | contradiction | decide

end SteadyText

/-- Marks that can stand among conditions: there are some, and from whichever number on their
placeholders are numbered, their text closes what it opens and its tokens are as asked. -/
structure IsCondition (asked : List Token → Prop) (ms : List Mark) : Prop where
  written : ms ≠ []
  balanced : ∀ n, BalancedText (numbered n ms)
  sound : ∀ n, asked (tokens (numbered n ms))

theorem IsCondition.of_steady {asked : List Token → Prop} (weaker : ∀ ts, Steady ts → asked ts)
    {ms : List Mark} (written : ms ≠ []) (steady : ∀ n, SteadyText (numbered n ms)) :
    IsCondition asked ms :=
  ⟨written, fun n => (steady n).balanced, fun n => weaker _ (steady n).steady⟩

/-- A phrase that becomes a condition wherever it is written. -/
def WritesCondition (asked : List Token → Prop) (p : Phrase) : Prop :=
  ∀ write, Texture.balanced.Writes write → ∀ ps, expand write p = .ok ps → IsCondition asked (marks ps)

theorem writes_flat {asked : List Token → Prop} {p : Phrase} (flat : p.all Part.isFlat = true)
    (h : IsCondition asked (phraseMarks p)) : WritesCondition asked p := by
  intro write _ ps hps
  obtain ⟨qs, hqs, hmarks⟩ := expand_flat write flat
  rw [hps] at hqs
  rw [Except.ok.inj hqs, hmarks]
  exact h

theorem writes_unwritable (asked : List Token → Prop) : WritesCondition asked [.unwritable] := by
  intro write _ ps hps
  cases hps

section

variable {asked : List Token → Prop} (weaker : ∀ ts, Steady ts → asked ts)

include weaker

theorem writes_test {op : Operator} {column : String} (hcolumn : SteadyText column.toList)
    (h : op ≠ .between) (h' : op ≠ .notBetween) :
    WritesCondition asked [.text s!"{column} {op.sql}"] := by
  refine writes_flat rfl (.of_steady weaker ?_ fun n => ?_)
  · simp [phraseMarks, toString]
  · have hsteady := hcolumn.spaced (.operator h h')
    change SteadyText (numbered n (phraseMarks [.text (column ++ " " ++ op.sql)]))
    simpa [phraseMarks, numbered_append, numbered] using hsteady

theorem writes_value {op : Operator} {column : String} (hcolumn : SteadyText column.toList)
    (h : op ≠ .between) (h' : op ≠ .notBetween) (v : Value) :
    WritesCondition asked [.text s!"{column} {op.sql} ", .slot v] := by
  refine writes_flat rfl (.of_steady weaker (by simp [phraseMarks]) fun n => ?_)
  have hsteady := hcolumn.spaced ((SteadyText.operator h h').spaced (.placeholder n))
  change SteadyText (numbered n (phraseMarks [.text (column ++ " " ++ op.sql ++ " "), .slot v]))
  simpa [phraseMarks, numbered_append, numbered] using hsteady

theorem writes_range {op : Operator} {column : String} (hcolumn : SteadyText column.toList)
    (h : op = .between ∨ op = .notBetween) (low high : Value) :
    WritesCondition asked
      [.text s!"{column} {op.sql} ", .slot low, .text " AND ", .slot high] := by
  refine writes_flat rfl (.of_steady weaker (by simp [phraseMarks]) fun n => ?_)
  have hsteady := hcolumn.spaced (SteadyText.range h n (n + 1))
  change SteadyText (numbered n (phraseMarks
    [.text (column ++ " " ++ op.sql ++ " "), .slot low, .text " AND ", .slot high]))
  simpa [phraseMarks, numbered_append, numbered] using hsteady

theorem writes_membership {op : Operator} {column : String} (hcolumn : SteadyText column.toList)
    (h : op ≠ .between) (h' : op ≠ .notBetween) (vs : List Value) :
    WritesCondition asked (.text s!"{column} {op.sql} (" :: slots vs ++ [.text ")"]) := by
  refine writes_flat (by simp [Part.isFlat, flat_slots])
    (.of_steady weaker (by simp [phraseMarks, phraseMarks_append]) fun n => ?_)
  have hslots : BalancedText (numbered n (phraseMarks (slots vs))) :=
    loose_slots (T := Texture.balanced) slot_balanced vs n
  have hsteady := hcolumn.spaced ((SteadyText.operator h h').spaced (.enclosed hslots))
  change SteadyText (numbered n (phraseMarks
    (.text (column ++ " " ++ op.sql ++ " (") :: slots vs ++ [.text ")"])))
  simpa [phraseMarks, phraseMarks_append, numbered_append, numbered] using hsteady

theorem writes_comparison {op : Operator} {column : String} (hcolumn : SteadyText column.toList)
    {v : Value} {p : Phrase} (h : comparison op column v = .ok p) : WritesCondition asked p := by
  have htest := h
  unfold comparison at h
  split at h
  · obtain rfl := Except.ok.inj h
    exact writes_test weaker hcolumn (by decide) (by decide)
  · obtain rfl := Except.ok.inj h
    exact writes_test weaker hcolumn (by decide) (by decide)
  · obtain ⟨vs, _, rfl⟩ := membership_ok (.inl rfl) htest
    exact writes_membership weaker hcolumn (by decide) (by decide) vs
  · obtain ⟨vs, _, rfl⟩ := membership_ok (.inr rfl) htest
    exact writes_membership weaker hcolumn (by decide) (by decide) vs
  · obtain ⟨low, high, _, rfl⟩ := range_ok (.inl rfl) htest
    exact writes_range weaker hcolumn (.inl rfl) low high
  · obtain ⟨low, high, _, rfl⟩ := range_ok (.inr rfl) htest
    exact writes_range weaker hcolumn (.inr rfl) low high
  · split at h
    · cases h
    · obtain rfl := Except.ok.inj h
      refine writes_value weaker hcolumn ?_ ?_ v
      all_goals
        rintro rfl
        contradiction

theorem writes_embedded {s : String} (hs : SteadyText s.toList) (query : Option Nat) :
    WritesCondition asked [.text (s ++ " ("), embed query, .text ")"] := by
  intro write writes ps hps
  obtain ⟨qs, hqs, rfl⟩ := expand_text hps
  cases query with
  | none => cases hqs
  | some id =>
      obtain ⟨inner, rest, hinner, hrest, rfl⟩ := expand_query hqs
      obtain rfl := Except.ok.inj hrest
      refine .of_steady weaker (by simp) fun n => ?_
      have hsteady := hs.spaced (.enclosed (writes id inner hinner n))
      simpa [numbered_append, numbered] using hsteady

theorem writes_aggregate (agg : Aggregate) {op : Operator} (hop : op.isComparison = true)
    {target : String} (plain : target.toList.all isPlain = true) (v : Value) :
    WritesCondition asked [.text s!"{agg.sql}({target}) {op.sql} ", .slot v] := by
  refine writes_flat rfl (.of_steady weaker (by simp [phraseMarks]) fun n => ?_)
  have hname : SteadyText agg.sql.toList :=
    .of_inert (balanced_of_plain (plain_of_glue (glue_aggregate agg))) (by cases agg <;> decide)
  have hcall := SteadyText.append (by decide) hname (.enclosed (balanced_of_plain plain))
  have hword : SteadyText op.sql.toList := by
    refine .operator ?_ ?_
    all_goals
      rintro rfl
      cases hop
  have hsteady := hcall.spaced (hword.spaced (.placeholder n))
  change SteadyText (numbered n (phraseMarks
    [.text (agg.sql ++ "(" ++ target ++ ") " ++ op.sql ++ " "), .slot v]))
  simpa [phraseMarks, numbered_append, numbered] using hsteady

end

end TableLoom.Query
