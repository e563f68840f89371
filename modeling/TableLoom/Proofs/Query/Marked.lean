import TableLoom.Proofs.Query.Items
import TableLoom.Proofs.Query.Marks
import TableLoom.Proofs.Query.PlainText
import TableLoom.Proofs.Text.Split

/-!
What a clause supplies: text in which question marks keep places, and a value for each place. Raw text
arrives like that; a comparison is read as if it did.
-/

namespace TableLoom.Query

/-- Text in which question marks keep the places of values. -/
structure Marked where
  text : String
  values : List Value

/-- The text with the values in their places. -/
def fill : List Char → List Value → List Mark
  | [], _ => []
  | c :: rest, [] => .char c :: fill rest []
  | c :: rest, v :: vs => if c == '?' then .value v :: fill rest vs else .char c :: fill rest (v :: vs)

namespace Marked

def marks (m : Marked) : List Mark :=
  fill m.text.toList m.values

/-- There is one value for each place. -/
def Complete (m : Marked) : Prop :=
  m.text.toList.count '?' = m.values.length

end Marked

theorem fill_chars {cs : List Char} (h : '?' ∉ cs) : fill cs [] = chars cs := by
  induction cs with
  | nil => rfl
  | cons c cs ih => exact congrArg (_ :: ·) (ih fun hmem => h (List.mem_cons_of_mem c hmem))

theorem fill_place (rest : List Char) (v : Value) (vs : List Value) :
    fill ('?' :: rest) (v :: vs) = .value v :: fill rest vs := rfl

theorem fill_skip {c : Char} (hc : c ≠ '?') (rest : List Char) (vs : List Value) :
    fill (c :: rest) vs = .char c :: fill rest vs := by
  cases vs with
  | nil => rfl
  | cons v vs => simp [fill, hc]

theorem fill_append {cs : List Char} {vs : List Value} (h : cs.count '?' = vs.length)
    (rest : List Char) (ws : List Value) :
    fill (cs ++ rest) (vs ++ ws) = fill cs vs ++ fill rest ws := by
  induction cs generalizing vs with
  | nil => rw [List.eq_nil_of_length_eq_zero h.symm]; rfl
  | cons c cs ih =>
      by_cases hc : c = '?'
      · subst hc
        cases vs with
        | nil => simp at h
        | cons v vs =>
            rw [List.count_cons_self, List.length_cons] at h
            exact congrArg (_ :: ·) (ih (Nat.succ.inj h))
      · rw [List.count_cons_of_ne hc] at h
        rw [List.cons_append, fill_skip hc, fill_skip hc, ih h, List.cons_append]

theorem fill_plain {cs : List Char} (h : '?' ∉ cs) (rest : List Char) (vs : List Value) :
    fill (cs ++ rest) vs = chars cs ++ fill rest vs := by
  have hnone : cs.count '?' = ([] : List Value).length := List.count_eq_zero.mpr h
  rw [← fill_chars h]
  exact fill_append hnone rest vs

theorem unnumbered_fill {cs : List Char} (h : Unnumbered (chars cs)) (vs : List Value) :
    Unnumbered (fill cs vs) := by
  -- The head of the filled text is the head of the text, or a value in its place.
  have hhead : ∀ (cs : List Char) (vs : List Value), ∀ m ∈ (fill cs vs).head?,
      m.isDigit = true → m ∈ (chars cs).head? := by
    intro cs vs m hm hdigit
    cases cs with
    | nil => cases hm
    | cons c cs =>
        cases vs with
        | nil => exact hm
        | cons v vs =>
            rw [fill] at hm
            split at hm
            · obtain rfl := Option.some.inj hm
              cases hdigit
            · exact hm
  have hcons : ∀ (m : Mark) (cs : List Char) (vs : List Value), Unnumbered (m :: chars cs) →
      Unnumbered (fill cs vs) → Unnumbered (m :: fill cs vs) := by
    intro m cs vs hchars hfill
    refine List.isChain_cons.mpr ⟨fun m' hm' => ?_, hfill⟩
    cases hdigit : m'.isDigit with
    | false => rw [Bool.and_false]
    | true =>
        have happart := (List.isChain_cons.mp hchars).1 m' (hhead cs vs m' hm' hdigit)
        rwa [hdigit] at happart
  induction cs generalizing vs with
  | nil => exact List.isChain_nil
  | cons c cs ih =>
      have htail : Unnumbered (chars cs) := List.IsChain.tail h
      cases vs with
      | nil => exact hcons (.char c) cs [] h (ih htail [])
      | cons v vs =>
          rw [fill]
          split
          · refine hcons (.value v) cs vs (List.isChain_cons.mpr ⟨fun _ _ => rfl, htail⟩) (ih htail vs)
          · exact hcons (.char c) cs (v :: vs) h (ih htail (v :: vs))

/-- Whether a part is text or the place of a value. -/
def Part.isFlat : Part → Bool
  | .text _ | .slot _ => true
  | .query _ | .unwritable => false

/-- The marks of a phrase that embeds nothing. -/
def phraseMarks : Phrase → List Mark
  | [] => []
  | .text s :: rest => chars s.toList ++ phraseMarks rest
  | .slot v :: rest => .value v :: phraseMarks rest
  | _ :: rest => phraseMarks rest

theorem expand_flat (write : Nat → Except Fault (List Piece)) {p : Phrase}
    (flat : p.all Part.isFlat = true) :
    ∃ ps, expand write p = .ok ps ∧ marks ps = phraseMarks p := by
  induction p with
  | nil => exact ⟨[], rfl, rfl⟩
  | cons part p ih =>
      rw [List.all_cons, Bool.and_eq_true] at flat
      obtain ⟨ps, hps, hmarks⟩ := ih flat.2
      cases part with
      | text s => exact ⟨.text s :: ps, by rw [expand, hps]; rfl, by simp [phraseMarks, hmarks]⟩
      | slot v => exact ⟨.slot v :: ps, by rw [expand, hps]; rfl, by simp [phraseMarks, hmarks]⟩
      | query id => cases flat.1
      | unwritable => cases flat.1

theorem flat_rawParts (parts : List (List Char)) (vs : List Value) :
    (rawParts parts vs).all Part.isFlat = true := by
  induction parts generalizing vs with
  | nil => rfl
  | cons s parts ih =>
      cases parts with
      | nil => rfl
      | cons s' parts =>
          cases vs with
          | nil => rfl
          | cons v vs => exact ih vs

theorem phraseMarks_rawParts_cons (c : Char) (part : List Char) (parts : List (List Char))
    (vs : List Value) :
    phraseMarks (rawParts ((c :: part) :: parts) vs) =
      .char c :: phraseMarks (rawParts (part :: parts) vs) := by
  cases parts with
  | nil => simp [rawParts, phraseMarks]
  | cons s parts =>
      cases vs with
      | nil => simp [rawParts, phraseMarks]
      | cons v vs => simp [rawParts, phraseMarks]

theorem phraseMarks_rawParts {cs : List Char} {vs : List Value} (h : cs.count '?' = vs.length) :
    phraseMarks (rawParts (Text.splitChars '?' cs) vs) = fill cs vs := by
  induction cs generalizing vs with
  | nil => simp [Text.splitChars, rawParts, phraseMarks, fill]
  | cons c cs ih =>
      have hne : Text.splitChars '?' cs ≠ [] :=
        Text.splitChars_eq_splitOn '?' cs ▸ List.splitOn_ne_nil '?' cs
      obtain ⟨part, parts, hsplit⟩ := List.exists_cons_of_ne_nil hne
      by_cases hc : c = '?'
      · subst hc
        cases vs with
        | nil => simp at h
        | cons v vs =>
            rw [List.count_cons_self, List.length_cons] at h
            rw [fill_place, ← ih (Nat.succ.inj h), hsplit]
            simp [Text.splitChars, hsplit, rawParts, phraseMarks]
      · rw [List.count_cons_of_ne hc] at h
        rw [fill_skip hc, ← ih h, hsplit]
        simp only [Text.splitChars, beq_iff_eq, hc, ↓reduceIte, hsplit]
        exact phraseMarks_rawParts_cons c part parts vs

/-- What a clause adds and what it supplies read the same, place by place. -/
structure Marked.Reads (m : Marked) (p : Phrase) : Prop where
  complete : m.Complete
  flat : p.all Part.isFlat = true
  same : phraseMarks p = m.marks

/-- Raw text that is taken is text with a value for each question mark, or no text at all. -/
theorem readRaw_ok {sql : Value} {params : List Value} {p : Phrase}
    (h : readRaw sql params = .ok p) :
    (p = [.unwritable] ∧ ∃ items, sql = .list items) ∨
      ∃ s, sql = .text s ∧ (⟨s, params⟩ : Marked).Reads p := by
  unfold readRaw at h
  split at h
  · next s =>
      simp only at h
      split at h
      · next hcount =>
          obtain rfl := Except.ok.inj h
          rw [beq_iff_eq] at hcount
          exact .inr ⟨s, rfl, hcount, flat_rawParts _ params, phraseMarks_rawParts hcount⟩
      · cases h
  · simp only at h
    split at h
    · exact .inl ⟨(Except.ok.inj h).symm, _, rfl⟩
    · cases h
  · cases h
  · cases h

theorem count_plain {cs : List Char} (h : '?' ∉ cs) : cs.count '?' = 0 :=
  List.count_eq_zero.mpr h

theorem reads_text {s : String} (h : '?' ∉ s.toList) : (⟨s, []⟩ : Marked).Reads [.text s] where
  complete := count_plain h
  flat := rfl
  same := by simp [phraseMarks, Marked.marks, fill_chars h]

theorem reads_one {s : String} (h : '?' ∉ s.toList) (v : Value) :
    (⟨s ++ "?", [v]⟩ : Marked).Reads [.text s, .slot v] where
  complete := by simp [Marked.Complete, count_plain h]
  flat := rfl
  same := by
    rw [Marked.marks, String.toList_append, fill_plain h]
    rfl

theorem reads_two {s : String} (h : '?' ∉ s.toList) (v w : Value) :
    (⟨s ++ "? AND ?", [v, w]⟩ : Marked).Reads [.text s, .slot v, .text " AND ", .slot w] where
  complete := by simp [Marked.Complete, count_plain h]
  flat := rfl
  same := by
    rw [Marked.marks, String.toList_append, fill_plain h]
    simp [phraseMarks, fill]

/-- Places in a row. -/
def places : List Value → String
  | [] => ""
  | [_] => "?"
  | _ :: rest => "?, " ++ places rest

theorem count_places (vs : List Value) : (places vs).toList.count '?' = vs.length := by
  induction vs with
  | nil => rfl
  | cons v vs ih =>
      cases vs with
      | nil => simp [places]
      | cons w vs => simp [places, ih]

theorem flat_slots (vs : List Value) : (slots vs).all Part.isFlat = true := by
  induction vs with
  | nil => rfl
  | cons v vs ih =>
      cases vs with
      | nil => rfl
      | cons w vs => exact ih

theorem phraseMarks_slots (vs : List Value) : phraseMarks (slots vs) = fill (places vs).toList vs := by
  induction vs with
  | nil => rfl
  | cons v vs ih =>
      cases vs with
      | nil => simp [slots, places, phraseMarks, fill]
      | cons w vs =>
          have htext : (places (v :: w :: vs)).toList =
              '?' :: (", ".toList ++ (places (w :: vs)).toList) := by
            simp [places]
          rw [htext, fill_place, fill_plain (by decide), ← ih]
          simp [slots, phraseMarks]

theorem phraseMarks_append (p q : Phrase) :
    phraseMarks (p ++ q) = phraseMarks p ++ phraseMarks q := by
  induction p with
  | nil => rfl
  | cons part p ih => cases part <;> simp [phraseMarks, ih]

theorem reads_places {s : String} (h : '?' ∉ s.toList) (vs : List Value) :
    (⟨s ++ places vs ++ ")", vs⟩ : Marked).Reads (.text s :: slots vs ++ [.text ")"]) where
  complete := by simp [Marked.Complete, count_plain h, count_places]
  flat := by simp [Part.isFlat, flat_slots]
  same := by
    have hplaces := fill_append (count_places vs) ")".toList []
    rw [List.append_nil] at hplaces
    rw [Marked.marks, String.toList_append, String.toList_append, List.append_assoc, fill_plain h,
      hplaces, List.cons_append, phraseMarks, phraseMarks_append, phraseMarks_slots]
    rfl

/-- What a comparison supplies. -/
def comparisonMarked (op : Operator) (column : String) (v : Value) : Option Marked :=
  match op with
  | .isNull | .isNotNull => some ⟨s!"{column} {op.sql}", []⟩
  | .in_ | .notIn => (members? v).map fun vs => ⟨s!"{column} {op.sql} (" ++ places vs ++ ")", vs⟩
  | .between | .notBetween =>
    match v with
    | .list [low, high] => some ⟨s!"{column} {op.sql} " ++ "? AND ?", [low, high]⟩
    | _ => none
  | _ => some ⟨s!"{column} {op.sql} " ++ "?", [v]⟩

theorem notMem_comparison {column : String} (h : isGlue column.toList = true) (op : Operator)
    (tail : String) (htail : '?' ∉ tail.toList) : '?' ∉ (s!"{column} {op.sql}" ++ tail).toList := by
  have hcolumn := notMem_of_plain (plain_of_glue h) '?' rfl
  have hop := notMem_of_plain (plain_of_glue (glue_operator op)) '?' rfl
  change '?' ∉ (column ++ " " ++ op.sql ++ tail).toList
  simp [hcolumn, hop, htail]

theorem membership_ok {op : Operator} (hop : op = .in_ ∨ op = .notIn) {column : String}
    {v : Value} {p : Phrase} (h : comparison op column v = .ok p) :
    ∃ vs, comparisonMarked op column v = some ⟨s!"{column} {op.sql} (" ++ places vs ++ ")", vs⟩ ∧
      p = .text s!"{column} {op.sql} (" :: slots vs ++ [.text ")"] := by
  have hmarked : comparisonMarked op column v =
      (members? v).map fun vs => ⟨s!"{column} {op.sql} (" ++ places vs ++ ")", vs⟩ := by
    rcases hop with rfl | rfl <;> rfl
  rw [hmarked]
  cases hvs : members? v with
  | none => rcases hop with rfl | rfl <;> simp [comparison, hvs] at h
  | some vs =>
      cases vs with
      | nil => rcases hop with rfl | rfl <;> simp [comparison, hvs] at h
      | cons w vs =>
          have hok : comparison op column v =
              .ok (.text s!"{column} {op.sql} (" :: slots (w :: vs) ++ [.text ")"]) := by
            rcases hop with rfl | rfl <;> simp [comparison, hvs]
          rw [hok] at h
          exact ⟨w :: vs, rfl, (Except.ok.inj h).symm⟩

theorem range_ok {op : Operator} (hop : op = .between ∨ op = .notBetween) {column : String}
    {v : Value} {p : Phrase} (h : comparison op column v = .ok p) :
    ∃ low high,
      comparisonMarked op column v = some ⟨s!"{column} {op.sql} " ++ "? AND ?", [low, high]⟩ ∧
      p = [.text s!"{column} {op.sql} ", .slot low, .text " AND ", .slot high] := by
  rcases hop with rfl | rfl
  all_goals
    unfold comparison at h
    simp only at h
    split at h
    · exact ⟨_, _, rfl, (Except.ok.inj h).symm⟩
    · cases h

theorem comparison_ok {op : Operator} {column : String} {v : Value} {p : Phrase}
    (glue : isGlue column.toList = true) (h : comparison op column v = .ok p) :
    ∃ m, comparisonMarked op column v = some m ∧ m.Reads p := by
  have hnone := notMem_comparison glue op "" (by decide)
  rw [String.append_empty] at hnone
  have hblank := notMem_comparison glue op " " (by decide)
  have hopen := notMem_comparison glue op " (" (by decide)
  have hop := h
  unfold comparison at h
  split at h
  · obtain rfl := Except.ok.inj h
    exact ⟨_, rfl, reads_text hnone⟩
  · obtain rfl := Except.ok.inj h
    exact ⟨_, rfl, reads_text hnone⟩
  · obtain ⟨vs, hmarked, rfl⟩ := membership_ok (.inl rfl) hop
    exact ⟨_, hmarked, reads_places hopen vs⟩
  · obtain ⟨vs, hmarked, rfl⟩ := membership_ok (.inr rfl) hop
    exact ⟨_, hmarked, reads_places hopen vs⟩
  · obtain ⟨low, high, hmarked, rfl⟩ := range_ok (.inl rfl) hop
    exact ⟨_, hmarked, reads_two hblank low high⟩
  · obtain ⟨low, high, hmarked, rfl⟩ := range_ok (.inr rfl) hop
    exact ⟨_, hmarked, reads_two hblank low high⟩
  · have hmarked : comparisonMarked op column v = some ⟨s!"{column} {op.sql} " ++ "?", [v]⟩ := by
      unfold comparisonMarked
      split
      all_goals first
        | rfl
        | contradiction
    split at h
    · cases h
    · obtain rfl := Except.ok.inj h
      exact ⟨_, hmarked, reads_one hblank v⟩

/-- Raw text that a clause supplies with its values. -/
def Clause.rawMarked : Clause → List Marked
  | .selectRaw (.text s) params | .rawCondition _ (.text s) params | .having (.text s) params =>
    [⟨s, params⟩]
  | .include_ _ (some r) =>
    match r.filter with
    | .text s => [⟨s, r.params⟩]
    | _ => []
  | _ => []

/-- The comparison that a clause supplies. -/
def Clause.comparison? : Clause → Option Marked
  | .condition _ (.text column) operator v =>
    match readOperator operator with
    | .ok op => if Text.isColumnReference column then comparisonMarked op column v else none
    | .error _ => none
  | .havingAggregate aggregate (.text column) operator v =>
    match readAggregate aggregate, readOperator operator with
    | .ok agg, .ok op =>
      if column == "*" || Text.isColumnReference column then
        some ⟨s!"{agg.sql}({column}) {op.sql} " ++ "?", [v]⟩
      else none
    | _, _ => none
  | _ => none

/-- All that a clause supplies with places for values. -/
def Clause.supplies (c : Clause) : List Marked :=
  c.rawMarked ++ c.comparison?.toList

theorem readColumn_ok {b : Binding} {v : Value} {column : String}
    (h : readColumn b v = .ok column) :
    v = .text column ∧ Text.isColumnReference column = true := by
  unfold readColumn at h
  split at h
  · split at h
    · cases h
    · split at h
      · cases h
      · next hreference _ =>
          obtain rfl := Except.ok.inj h
          exact ⟨rfl, by simpa using hreference⟩
  · cases h

theorem readTarget_ok {b : Binding} {v : Value} {target : String}
    (h : readTarget b v = .ok target) :
    v = .text target ∧ (target = "*" ∨ Text.isColumnReference target = true) := by
  unfold readTarget at h
  split at h
  · obtain rfl := Except.ok.inj h
    exact ⟨rfl, .inl rfl⟩
  · obtain ⟨hv, hreference⟩ := readColumn_ok h
    exact ⟨hv, .inr hreference⟩

theorem glue_target {target : String} (h : target = "*" ∨ Text.isColumnReference target = true) :
    isGlue target.toList = true := by
  rcases h with rfl | h
  · decide
  · exact glue_of_isColumnReference h

theorem readCondition_ok {b : Binding} (link : Link) {column operator v : Value} {p : Phrase}
    (h : readCondition b column operator v = .ok p) :
    ∃ m ∈ (Clause.condition link column operator v).supplies, m.Reads p := by
  unfold readCondition at h
  obtain ⟨op, hop, hrest⟩ := bind_ok h
  obtain ⟨name, hname, hcomparison⟩ := bind_ok hrest
  obtain ⟨rfl, hreference⟩ := readColumn_ok hname
  obtain ⟨m, hm, hreads⟩ := comparison_ok (glue_of_isColumnReference hreference) hcomparison
  refine ⟨m, ?_, hreads⟩
  simp [Clause.supplies, Clause.rawMarked, Clause.comparison?, hop, hreference, hm]

end TableLoom.Query
