import TableLoom.Proofs.Query.Texture

/-!
The clauses of a builder keep to a texture when the texts of its calls do: raw text, the texts of its
binding, and comparisons, whose columns and operators are plain.
-/

namespace TableLoom.Query

structure Relation.Fits (T : Texture) (r : Relation) : Prop where
  name : T.label r.name.toList
  table : T.loose (chars r.table.toList)
  localColumn : T.loose (chars r.localColumn.toList)
  foreignColumn : T.loose (chars r.foreignColumn.toList)

structure IncludeOptions.Fits (T : Texture) (o : IncludeOptions) : Prop where
  filter : ∀ p, o.filter = some p → T.Takes p
  orderBy : ∀ s, o.orderBy = some s → T.loose (chars s.toList)

structure Binding.Fits (T : Texture) (b : Binding) : Prop where
  table : isGlue b.table.toList = true
  selectAll : T.loose (chars b.selectAll.toList)
  relations : ∀ r ∈ b.relations, r.Fits T

/-- A value that is text keeps to the texture; what is no text is never written. -/
def Texture.TextFits (T : Texture) (v : Value) : Prop :=
  ∀ s, v = .text s → T.loose (chars s.toList)

def Item.Fits (T : Texture) : Item → Prop
  | .select p => T.Takes p
  | .join sql => T.loose (chars sql.toList)
  | .include_ r o => r.Fits T ∧ o.Fits T
  | .condition x => T.Takes x.phrase
  | .group v => T.TextFits v
  | .having p => T.Takes p
  | .order v => T.TextFits v

def Clauses.Fits (T : Texture) (c : Clauses) : Prop :=
  ∀ x, c.Has x → x.Fits T

/-- Raw text of a clause that has no places for values. -/
def Clause.looseTexts : Clause → List String
  | .groupByRaw (.text s) | .orderByRaw (.text s) => [s]
  | .include_ _ (some r) => if r.orderBy.truthy then [r.orderBy.display] else []
  | _ => []

structure Clause.Fits (T : Texture) (c : Clause) : Prop where
  supplies : ∀ m ∈ c.supplies, m.Complete → T.loose m.marks
  looseTexts : ∀ s ∈ c.looseTexts, T.loose (chars s.toList)

/-- The texts of a call keep to the texture. -/
def Call.Fits (T : Texture) : Call → Prop
  | .make binding _ =>
    T.loose (chars binding.selectAll.toList) ∧ ∀ r ∈ binding.relations, r.Fits T
  | .clause _ c => c.Fits T
  | _ => True

/-- Raw texts of a call: those of its clause, and those of a binding. -/
def Call.rawTexts : Call → List String
  | .make binding _ => binding.selectAll
      :: binding.relations.flatMap fun r => [r.name, r.table, r.localColumn, r.foreignColumn]
  | .clause _ c => c.rawMarked.map (·.text) ++ c.looseTexts
  | _ => []

/-- What a call names relations by. -/
def Call.labels : Call → List String
  | .make binding _ => binding.relations.map (·.name)
  | _ => []

theorem Call.labels_subset (call : Call) : call.labels ⊆ call.rawTexts := by
  intro s hs
  cases call with
  | make binding table =>
      obtain ⟨r, hr, rfl⟩ := List.mem_map.mp hs
      exact List.mem_cons_of_mem _ (List.mem_flatMap.mpr ⟨r, hr, List.mem_cons_self⟩)
  | _ => cases hs

theorem glue_concat {s t : String} (hs : isGlue s.toList = true)
    (ht : t.toList.all isPlain = true) : isGlue (s ++ t).toList = true := by
  rw [String.toList_append]
  exact glue_append hs ht

theorem glue_qualify {table column : String} (ht : isGlue table.toList = true)
    (hc : isGlue column.toList = true) : isGlue (Naming.qualify table column).toList = true := by
  unfold Naming.qualify
  split
  · exact hc
  · exact glue_concat (glue_concat ht (by decide)) (plain_of_glue hc)

theorem readShaped_ok {shape : String → Bool} {fault : Value → Fault} {v : Value} {s : String}
    (h : readShaped shape fault v = .ok s) : shape s = true := by
  unfold readShaped at h
  split at h
  · split at h
    · next hshape =>
        obtain rfl := Except.ok.inj h
        exact hshape
    · cases h
  · cases h

theorem glue_readField {b : Binding} (table : isGlue b.table.toList = true) {v : Value}
    {s : String} (h : readField b v = .ok s) : isGlue s.toList = true := by
  unfold readField at h
  split at h
  · obtain rfl := Except.ok.inj h
    exact glue_concat table (by decide)
  · obtain ⟨column, hcolumn, heq⟩ := bind_ok h
    obtain rfl := Except.ok.inj heq
    exact glue_qualify table (glue_of_isColumnReference (readColumn_ok hcolumn).2)

theorem glue_readJoin {table left right kind : Value} {s : String}
    (h : readJoin table left right kind = .ok s) : isGlue s.toList = true := by
  obtain ⟨k, _, h₁⟩ := bind_ok h
  obtain ⟨t, ht, h₂⟩ := bind_ok h₁
  obtain ⟨l, hl, h₃⟩ := bind_ok h₂
  obtain ⟨r, hr, heq⟩ := bind_ok h₃
  obtain rfl := Except.ok.inj heq
  have htable := plain_of_glue (glue_of_isIdentifier (readShaped_ok ht))
  have hleft := plain_of_glue (glue_of_isColumnReference (readShaped_ok hl))
  have hright := plain_of_glue (glue_of_isColumnReference (readShaped_ok hr))
  change isGlue (k.sql ++ " " ++ t ++ " ON " ++ l ++ " = " ++ r).toList = true
  have hkind : isGlue (k.sql ++ " ").toList = true := glue_concat (glue_joinKind k) (by decide)
  have hon : isGlue (k.sql ++ " " ++ t ++ " ON ").toList = true :=
    glue_concat (glue_concat hkind htable) (by decide)
  exact glue_concat (glue_concat (glue_concat hon hleft) (by decide)) hright

theorem readOptions_ok {r : IncludeRequest} {o : IncludeOptions} (h : readOptions r = .ok o) :
    (o.filter = none ∨ ∃ p, o.filter = some p ∧ readRaw r.filter r.params = .ok p) ∧
      o.orderBy = if r.orderBy.truthy then some r.orderBy.display else none := by
  unfold readOptions at h
  extract_lets limited at h
  have hlimited : ∀ filter, limited filter = .ok o → o.filter = filter ∧
      o.orderBy = if r.orderBy.truthy then some r.orderBy.display else none := by
    intro filter hok
    simp only [limited] at hok
    split at hok
    · cases hok
      exact ⟨rfl, rfl⟩
    · obtain ⟨limit, _, heq⟩ := bind_ok hok
      cases heq
      exact ⟨rfl, rfl⟩
  split at h
  · obtain ⟨hfilter, horder⟩ := hlimited none h
    exact ⟨.inl hfilter, horder⟩
  · obtain ⟨filter, hread, hok⟩ := bind_ok h
    obtain ⟨hfilter, horder⟩ := hlimited filter hok
    cases hraw : readRaw r.filter r.params with
    | error e =>
        rw [hraw] at hread
        cases hread
    | ok p =>
        rw [hraw] at hread
        cases hread
        exact ⟨.inr ⟨p, hfilter, rfl⟩, horder⟩

theorem readInclude_ok {b : Binding} {relation : Value} {request : Option IncludeRequest}
    {r : Relation} {o : IncludeOptions} (h : readInclude b relation request = .ok (r, o)) :
    ∃ asked, request = some asked ∧ r ∈ b.relations ∧ readOptions asked = .ok o := by
  unfold readInclude at h
  extract_lets known found at h
  have hfound : ∀ u, found u = .ok (r, o) →
      ∃ asked, request = some asked ∧ r ∈ b.relations ∧ readOptions asked = .ok o := by
    intro u hok
    simp only [found] at hok
    cases hknown : known with
    | none =>
        rw [hknown] at hok
        cases hok
    | some r' =>
        rw [hknown] at hok
        cases request with
        | none => cases hok
        | some asked =>
            obtain ⟨o', ho, heq⟩ := bind_ok hok
            cases heq
            obtain ⟨name, _, hfind⟩ := Option.bind_eq_some_iff.mp hknown
            exact ⟨asked, rfl, List.mem_reverse.mp (List.mem_of_find?_eq_some hfind), ho⟩
  split at h
  · cases h
  · cases h
  · exact hfound () h

theorem notMem_aggregate (agg : Aggregate) (op : Operator) {target : String}
    (glue : isGlue target.toList = true) :
    '?' ∉ s!"{agg.sql}({target}) {op.sql} ".toList := by
  have hagg := notMem_of_plain (plain_of_glue (glue_aggregate agg)) '?' rfl
  have htarget := notMem_of_plain (plain_of_glue glue) '?' rfl
  have hop := notMem_of_plain (plain_of_glue (glue_operator op)) '?' rfl
  change '?' ∉ (agg.sql ++ "(" ++ target ++ ") " ++ op.sql ++ " ").toList
  simp [hagg, htarget, hop]

namespace Texture

variable (T : Texture)

theorem takes_readRaw {sql : Value} {params : List Value} {p : Phrase}
    (h : readRaw sql params = .ok p)
    (fits : ∀ s, sql = .text s → (⟨s, params⟩ : Marked).Complete → T.loose (⟨s, params⟩ : Marked).marks) :
    T.Takes p := by
  rcases readRaw_ok h with ⟨rfl, _⟩ | ⟨s, hs, reads⟩
  · exact T.takes_unwritable
  · exact T.takes_reads reads (fits s hs reads.complete)

theorem takes_havingAggregate {b : Binding} {aggregate column operator value : Value}
    (fits : (Clause.havingAggregate aggregate column operator value).Fits T) {agg : Aggregate}
    (hagg : readAggregate aggregate = .ok agg) {op : Operator} (hop : readOperator operator = .ok op)
    {target : String} (htarget : readTarget b column = .ok target) :
    T.Takes [.text s!"{agg.sql}({target}) {op.sql} ", .slot value] := by
  obtain ⟨rfl, hshape⟩ := readTarget_ok htarget
  have hreads := reads_one (notMem_aggregate agg op (glue_target hshape)) value
  refine T.takes_reads hreads (fits.supplies _ ?_ hreads.complete)
  simp [Clause.supplies, Clause.rawMarked, Clause.comparison?, hagg, hop, hshape]

theorem takes_selectAggregate {b : Binding} {column : Value} {agg : Aggregate} {target : String}
    (htarget : readTarget b column = .ok target) {label : Value} {name : String}
    (hname : readAlias label = .ok name) : T.Takes [.text (s!"{agg.sql}({target})" ++ name)] := by
  have hend : T.firm (chars name.toList) := by
    unfold readAlias at hname
    split at hname
    · obtain rfl := Except.ok.inj hname
      exact T.firm_nil
    · obtain ⟨s, hs, heq⟩ := bind_ok hname
      obtain rfl := Except.ok.inj heq
      refine T.firm_glue ?_
      rw [String.toList_append]
      exact glue_append (by decide) (plain_of_glue (glue_of_isIdentifier (readShaped_ok hs)))
  apply T.takes_text
  change T.loose (chars (agg.sql ++ "(" ++ target ++ ")" ++ name).toList)
  have hcall := T.firm_call (glue_aggregate agg)
    (plain_of_glue (glue_target (readTarget_ok htarget).2)) hend
  simpa using T.loose_of_firm hcall

theorem fits_readOptions {r : IncludeRequest} {o : IncludeOptions} (h : readOptions r = .ok o)
    (supplies : ∀ s, r.filter = .text s → (⟨s, r.params⟩ : Marked).Complete →
      T.loose (⟨s, r.params⟩ : Marked).marks)
    (orderBy : r.orderBy.truthy = true → T.loose (chars r.orderBy.display.toList)) : o.Fits T := by
  obtain ⟨hfilter, horder⟩ := readOptions_ok h
  constructor
  · intro p hp
    rcases hfilter with hnone | ⟨q, hq, hread⟩
    · rw [hnone] at hp
      cases hp
    · rw [hq] at hp
      obtain rfl := Option.some.inj hp
      exact T.takes_readRaw hread supplies
  · intro s hs
    rw [horder, Option.ite_none_right_eq_some] at hs
    obtain ⟨htruthy, hs⟩ := hs
    exact Option.some.inj hs ▸ orderBy htruthy

theorem fits_readInclude {b : Binding} (hb : b.Fits T) {relation : Value}
    {request : Option IncludeRequest} (fits : (Clause.include_ relation request).Fits T)
    {r : Relation} {o : IncludeOptions} (h : readInclude b relation request = .ok (r, o)) :
    r.Fits T ∧ o.Fits T := by
  obtain ⟨asked, rfl, hmem, hoptions⟩ := readInclude_ok h
  refine ⟨hb.relations r hmem, T.fits_readOptions hoptions ?_ ?_⟩
  · intro s hs hcomplete
    exact fits.supplies _ (by simp [Clause.supplies, Clause.rawMarked, hs]) hcomplete
  · intro htruthy
    exact fits.looseTexts _ (by simp [Clause.looseTexts, htruthy])

end Texture

theorem textFits_of_glue {T : Texture} {s : String} (h : isGlue s.toList = true) :
    T.TextFits (.text s) := by
  intro t ht
  obtain rfl := Value.text.inj ht
  exact T.loose_glue h

theorem fits_brought {T : Texture} {b : Binding} (hb : b.Fits T) {c : Clause} (fits : c.Fits T)
    {x : Item} (h : c.Brings b x) : x.Fits T := by
  cases h with
  | select _ hread => exact T.takes_text (T.loose_glue (glue_readField hb.table hread))
  | selectAggregate htarget hname => exact T.takes_selectAggregate htarget hname
  | selectRaw hp =>
      refine T.takes_readRaw hp ?_
      rintro s rfl hcomplete
      exact fits.supplies _ (by simp [Clause.supplies, Clause.rawMarked]) hcomplete
  | @condition link _ _ _ _ hp =>
      obtain ⟨m, hm, hreads⟩ := readCondition_ok link hp
      exact T.takes_reads hreads (fits.supplies m hm hreads.complete)
  | rawCondition hp =>
      refine T.takes_readRaw hp ?_
      rintro s rfl hcomplete
      exact fits.supplies _ (by simp [Clause.supplies, Clause.rawMarked]) hcomplete
  | @presence query => exact T.takes_embedded (show isGlue "EXISTS".toList = true by decide) query
  | @absence query => exact T.takes_embedded (show isGlue "NOT EXISTS".toList = true by decide) query
  | @subquery _ _ query op _ hname _ =>
      have hname := glue_of_isColumnReference (readColumn_ok hname).2
      have hop := plain_of_glue (glue_operator op)
      exact T.takes_embedded (glue_concat (glue_concat hname (by decide)) hop) query
  | join hj => exact T.loose_glue (glue_readJoin hj)
  | include_ hfound => exact T.fits_readInclude hb fits hfound
  | groupBy _ hread => exact textFits_of_glue (glue_of_isColumnReference (readShaped_ok hread))
  | groupByRaw =>
      rintro s rfl
      exact fits.looseTexts s (by simp [Clause.looseTexts])
  | having hp =>
      refine T.takes_readRaw hp ?_
      rintro s rfl hcomplete
      exact fits.supplies _ (by simp [Clause.supplies, Clause.rawMarked]) hcomplete
  | havingAggregate hagg hop htarget _ => exact T.takes_havingAggregate fits hagg hop htarget
  | @orderBy _ _ dir _ hname =>
      have hglue := glue_of_isColumnReference (readShaped_ok hname)
      exact textFits_of_glue
        (glue_concat (glue_concat hglue (by decide)) (plain_of_glue (glue_direction dir)))
  | orderByRaw =>
      rintro s rfl
      exact fits.looseTexts s (by simp [Clause.looseTexts])

theorem loose_slots {T : Texture} (slot : ∀ v, T.firm [.value v]) (vs : List Value) :
    T.loose (phraseMarks (slots vs)) := by
  induction vs with
  | nil => exact T.loose_nil
  | cons v vs ih =>
      cases vs with
      | nil => exact T.loose_of_firm (slot v)
      | cons w vs =>
          have hglue : isGlue ", ".toList = true := by decide
          exact T.loose_of_firm (T.firm_append (slot v) (T.glued hglue ih))

theorem loose_membership {T : Texture} (slot : ∀ v, T.firm [.value v]) {s : String}
    (glue : isGlue (s ++ " ").toList = true) (vs : List Value) :
    T.loose (⟨s ++ " (" ++ places vs ++ ")", vs⟩ : Marked).marks := by
  have hnone : '?' ∉ (s ++ " (").toList := by
    have hplain := notMem_of_plain (plain_of_glue glue) '?' rfl
    simp only [String.toList_append, List.mem_append, not_or] at hplain ⊢
    exact ⟨hplain.1, by decide⟩
  have hall := T.glued glue (T.loose_of_firm (T.enclosed (loose_slots slot vs)))
  rw [← (reads_places hnone vs).same]
  simpa [phraseMarks, phraseMarks_append] using T.loose_of_firm hall

theorem loose_range {T : Texture} (slot : ∀ v, T.firm [.value v]) {s : String}
    (glue : isGlue s.toList = true) (v w : Value) :
    T.loose (⟨s ++ "? AND ?", [v, w]⟩ : Marked).marks := by
  have hand : isGlue " AND ".toList = true := by decide
  have hall := T.firm_append (T.firm_append (T.firm_glue glue) (slot v))
    (T.glued hand (T.loose_of_firm (slot w)))
  rw [← (reads_two (notMem_of_plain (plain_of_glue glue) '?' rfl) v w).same]
  simpa [phraseMarks] using T.loose_of_firm hall

theorem loose_comparison {T : Texture} (slot : ∀ v, T.firm [.value v]) {op : Operator}
    {column : String} {v : Value} (glue : isGlue column.toList = true) {m : Marked}
    (h : comparisonMarked op column v = some m) : T.loose m.marks := by
  have hnone := notMem_comparison glue op
  have hbare : isGlue (s!"{column} {op.sql}").toList = true :=
    glue_concat (glue_concat glue (by decide)) (plain_of_glue (glue_operator op))
  have hblank : isGlue (s!"{column} {op.sql} ").toList = true := glue_concat hbare (by decide)
  unfold comparisonMarked at h
  split at h
  · cases h
    rw [← (reads_text (notMem_of_plain (plain_of_glue hbare) '?' rfl)).same]
    simpa [phraseMarks] using T.loose_glue hbare
  · cases h
    rw [← (reads_text (notMem_of_plain (plain_of_glue hbare) '?' rfl)).same]
    simpa [phraseMarks] using T.loose_glue hbare
  · obtain ⟨vs, _, rfl⟩ := Option.map_eq_some_iff.mp h
    exact loose_membership slot hblank vs
  · obtain ⟨vs, _, rfl⟩ := Option.map_eq_some_iff.mp h
    exact loose_membership slot hblank vs
  · split at h
    · cases h
      exact loose_range slot hblank _ _
    · cases h
  · split at h
    · cases h
      exact loose_range slot hblank _ _
    · cases h
  · cases h
    rw [← (reads_one (notMem_of_plain (plain_of_glue hblank) '?' rfl) v).same]
    simpa [phraseMarks] using T.loose_append (T.loose_glue hblank) (slot v)

theorem loose_havingAggregate {T : Texture} (slot : ∀ v, T.firm [.value v]) (agg : Aggregate)
    (op : Operator) {target : String} (glue : isGlue target.toList = true) (v : Value) :
    T.loose (⟨s!"{agg.sql}({target}) {op.sql} " ++ "?", [v]⟩ : Marked).marks := by
  have hop : isGlue (" " ++ op.sql ++ " ").toList = true :=
    glue_concat (glue_concat (by decide) (plain_of_glue (glue_operator op))) (by decide)
  have hall := T.firm_append (T.firm_call (glue_aggregate agg) (plain_of_glue glue)
    (T.firm_glue hop)) (slot v)
  rw [← (reads_one (notMem_aggregate agg op glue) v).same]
  change T.loose (phraseMarks [.text (agg.sql ++ "(" ++ target ++ ") " ++ op.sql ++ " "), .slot v])
  simpa [phraseMarks] using T.loose_of_firm hall

theorem fits_of_raw {T : Texture} (slot : ∀ v, T.firm [.value v]) {c : Clause}
    (raw : ∀ m ∈ c.rawMarked, m.Complete → T.loose m.marks)
    (texts : ∀ s ∈ c.looseTexts, T.loose (chars s.toList)) : c.Fits T := by
  refine ⟨fun m hm hcomplete => ?_, texts⟩
  rcases List.mem_append.mp hm with hraw | hcomparison
  · exact raw m hraw hcomplete
  · rw [Option.mem_toList] at hcomparison
    unfold Clause.comparison? at hcomparison
    split at hcomparison
    · split at hcomparison
      · split at hcomparison
        · next hreference =>
            exact loose_comparison slot (glue_of_isColumnReference hreference) hcomparison
        · cases hcomparison
      · cases hcomparison
    · split at hcomparison
      · split at hcomparison
        · next htarget =>
            cases hcomparison
            exact loose_havingAggregate slot _ _ (glue_target (by simpa using htarget)) _
        · cases hcomparison
      · cases hcomparison
    · cases hcomparison

/-- A call keeps to a texture of characters that filling in values preserves when its raw texts do. -/
theorem fits_of_rawTexts {T : Texture} (slot : ∀ v, T.firm [.value v])
    (filled : ∀ {cs}, T.loose (chars cs) → ∀ vs, T.loose (fill cs vs)) {call : Call}
    (labels : ∀ s ∈ call.labels, T.label s.toList)
    (free : ∀ s ∈ call.rawTexts, T.loose (chars s.toList)) : call.Fits T := by
  cases call with
  | make binding table =>
      obtain ⟨hselect, hrelations⟩ := List.forall_mem_cons.mp free
      refine ⟨hselect, fun r hr => ?_⟩
      have hr' : ∀ s ∈ [r.name, r.table, r.localColumn, r.foreignColumn],
          T.loose (chars s.toList) := fun s hs =>
        hrelations s (List.mem_flatMap.mpr ⟨r, hr, hs⟩)
      have hname := labels r.name (List.mem_map_of_mem hr)
      exact ⟨hname, hr' _ (by simp), hr' _ (by simp), hr' _ (by simp)⟩
  | clause id c =>
      obtain ⟨hraw, hloose⟩ := List.forall_mem_append.mp free
      refine fits_of_raw slot (fun m hm _ => ?_) hloose
      exact filled (hraw m.text (List.mem_map_of_mem hm)) m.values
  | reset id => trivial
  | release id => trivial
  | send id t => trivial

theorem fits_make {T : Texture} {binding : Binding} {table : Value} {b : Builder}
    (selectAll : T.loose (chars binding.selectAll.toList))
    (relations : ∀ r ∈ binding.relations, r.Fits T)
    (h : Builder.make binding table = .ok b) : b.binding.Fits T := by
  have hprojection : ∀ name : String, isGlue name.toList = true →
      T.loose (chars (Builder.selectAllOf name).toList) := by
    intro name hname
    change T.loose (chars ("SELECT " ++ name ++ ".* FROM " ++ name).toList)
    have hplain := plain_of_glue hname
    refine T.loose_glue (glue_concat (glue_concat (glue_concat ?_ hplain) ?_) hplain)
    all_goals decide
  unfold Builder.make at h
  split at h
  · split at h
    · cases h
    · next htable =>
        cases h
        have hnamed : ¬binding.table = "" ∧ Text.isIdentifier binding.table = true := by
          simpa using htable
        have hglue := glue_of_isIdentifier hnamed.2
        refine ⟨hglue, ?_, relations⟩
        dsimp only
        split
        · exact hprojection binding.table hglue
        · exact selectAll
  · next name =>
      split at h
      · cases h
      · next htable =>
          cases h
          have hnamed : ¬name = "" ∧ Text.isIdentifier name = true := by simpa using htable
          have hglue := glue_of_isIdentifier hnamed.2
          exact ⟨hglue, hprojection name hglue, relations⟩
  · cases h

theorem fits_run {T : Texture} {calls : List Call} (fits : ∀ call ∈ calls, call.Fits T) :
    (Shelf.run calls).Every fun b c => b.Fits T ∧ c.Fits T := by
  refine Shelf.every_item ?_ ?_
  · intro binding table b hmem hmake
    obtain ⟨selectAll, relations⟩ := fits _ hmem
    exact fits_make selectAll relations hmake
  · exact fun id c b x hmem hb hbrings => fits_brought hb (fits _ hmem) hbrings

end TableLoom.Query
