import TableLoom.Proofs.Query.Clauses
import TableLoom.Proofs.Traversal

/-!
Statements keep to the texture of what they are made of, whichever sections they have, wherever the
queries that they embed come from, and however a terminal operation wraps them.
-/

namespace TableLoom.Query

namespace Texture

variable (T : Texture)

theorem loose_qualify {table column : String} (ht : isGlue table.toList = true)
    (hc : T.loose (chars column.toList)) :
    T.loose (chars (Naming.qualify table column).toList) := by
  unfold Naming.qualify
  split
  · exact hc
  · have hfirm := T.glued (glue_append ht (show ".".toList.all isPlain = true by decide)) hc
    simpa using T.loose_of_firm hfirm

theorem firm_rows {r : Relation} (hr : r.Fits T) {table : String} (ht : isGlue table.toList = true) :
    T.firm (chars (s!"SELECT {r.innerAlias}.* FROM {r.table} AS {r.innerAlias} WHERE "
      ++ r.link table).toList) := by
  have hwoven := T.firm_woven (show ∀ p ∈ [("SELECT ", chars r.name.toList),
      ("_rel.* FROM ", chars r.table.toList), (" AS ", chars r.name.toList),
      ("_rel WHERE ", chars r.name.toList), ("_rel.", chars r.foreignColumn.toList),
      (" = ", chars (Naming.qualify table r.localColumn).toList)],
      isGlue p.1.toList = true ∧ T.loose p.2 by
    have hname := T.loose_label hr.name
    have hlocal := T.loose_qualify ht hr.localColumn
    simp [hname, hlocal, hr.table, hr.foreignColumn]
    decide)
  change T.firm (chars ("SELECT " ++ (r.name ++ "_rel") ++ ".* FROM " ++ r.table ++ " AS "
    ++ (r.name ++ "_rel") ++ " WHERE " ++ (r.name ++ "_rel" ++ "." ++ r.foreignColumn ++ " = "
    ++ Naming.qualify table r.localColumn)).toList)
  simpa using hwoven

theorem firm_number {s : String} (h : isGlue s.toList = true) (n : Int) :
    T.firm (chars (s ++ toString n).toList) :=
  T.firm_glue (glue_concat h (plain_number n))

theorem takes_rows {r : Relation} (hr : r.Fits T) {o : IncludeOptions} (ho : o.Fits T)
    {table : String} (ht : isGlue table.toList = true) : T.Takes (r.rows table o) := by
  intro write writes ps hps
  unfold Relation.rows at hps
  extract_lets filter order limit at hps
  obtain ⟨as, bs, has, hbs, rfl⟩ := expand_append hps
  obtain ⟨fs, hfs, rfl⟩ := expand_text has
  obtain ⟨cs, hcs, rfl⟩ := expand_text hbs
  obtain rfl := Except.ok.inj hcs
  have hfilter : T.firm (marks fs) := by
    cases hoption : o.filter with
    | none =>
        simp only [filter, hoption] at hfs
        obtain rfl := Except.ok.inj hfs
        exact T.firm_nil
    | some p =>
        simp only [filter, hoption] at hfs
        obtain ⟨gs, es, hgs, hes, rfl⟩ := expand_append hfs
        obtain ⟨qs, hqs, rfl⟩ := expand_text hgs
        obtain ⟨none_, hnone, rfl⟩ := expand_text hes
        obtain rfl := Except.ok.inj hnone
        have hinner := T.enclosed (ho.filter p hoption write writes qs hqs)
        have hglue : isGlue " AND ".toList = true := by decide
        simpa using T.glued hglue (T.loose_of_firm hinner)
  have horder : T.firm (chars order.toList) := by
    cases hoption : o.orderBy with
    | none => simpa [order, hoption] using T.firm_nil
    | some s =>
        have hglue : isGlue " ORDER BY ".toList = true := by decide
        simpa [order, hoption] using T.glued hglue (ho.orderBy s hoption)
  have hlimit : T.firm (chars limit.toList) := by
    cases hoption : r.effectiveLimit o with
    | none => simpa [limit, hoption] using T.firm_nil
    | some n =>
        simp only [limit, hoption]
        exact T.firm_number (by decide) n
  have hall := T.firm_append (T.firm_rows hr ht)
    (T.firm_append hfilter (T.firm_append horder hlimit))
  simpa using T.loose_of_firm hall

theorem firm_gathered {r : Relation} (hr : r.Fits T) : T.firm (chars r.gathered.toList) := by
  have hrow : T.loose (chars r.name.toList ++ chars "_row".toList) :=
    T.loose_append (T.loose_label hr.name) (T.firm_glue (by decide))
  have hjson := T.glued (show isGlue "to_jsonb".toList = true by decide)
    (T.loose_of_firm (T.enclosed hrow))
  unfold Relation.gathered
  split
  · have hagg := T.glued (show isGlue "jsonb_agg".toList = true by decide)
      (T.loose_of_firm (T.enclosed (T.loose_of_firm hjson)))
    have hcomma := T.firm_glue (show isGlue ", ".toList = true by decide)
    have hcast := T.firm_glue (show isGlue "::jsonb".toList = true by decide)
    have hcoalesce := T.glued (show isGlue "SELECT COALESCE".toList = true by decide)
      (T.loose_of_firm (T.enclosed (T.loose_of_firm
        (T.firm_append hagg (T.firm_append hcomma (T.firm_append T.quoted_list hcast))))))
    have hall := T.firm_append hcoalesce (T.firm_glue (show isGlue " AS data".toList = true by decide))
    change T.firm (chars ("SELECT COALESCE(jsonb_agg(to_jsonb(" ++ (r.name ++ "_row")
      ++ ")), '[]'::jsonb) AS data").toList)
    simpa using hall
  · have hselect := T.glued (show isGlue "SELECT ".toList = true by decide) (T.loose_of_firm hjson)
    have hall := T.firm_append hselect (T.firm_glue (show isGlue " AS data".toList = true by decide))
    change T.firm (chars ("SELECT to_jsonb(" ++ (r.name ++ "_row") ++ ") AS data").toList)
    simpa using hall

theorem takes_lateral {r : Relation} (hr : r.Fits T) {o : IncludeOptions} (ho : o.Fits T)
    {table : String} (ht : isGlue table.toList = true) : T.Takes (r.lateral table o) := by
  intro write writes ps hps
  unfold Relation.lateral at hps
  obtain ⟨as, bs, has, hbs, rfl⟩ := expand_append hps
  obtain ⟨qs, hqs, rfl⟩ := expand_text has
  obtain ⟨none_, hnone, rfl⟩ := expand_text hbs
  obtain rfl := Except.ok.inj hnone
  have hname := T.loose_label hr.name
  have hrows := T.glued (show isGlue " FROM ".toList = true by decide)
    (T.loose_of_firm (T.enclosed (T.takes_rows hr ho ht write writes qs hqs)))
  have hrow := T.firm_append (T.glued (show isGlue " AS ".toList = true by decide) hname)
    (T.firm_glue (show isGlue "_row".toList = true by decide))
  have hinner := T.firm_append (T.firm_gathered hr) (T.firm_append hrows hrow)
  have hjoin := T.glued (show isGlue "LEFT JOIN LATERAL ".toList = true by decide)
    (T.loose_of_firm (T.enclosed (T.loose_of_firm hinner)))
  have hend := T.firm_append (T.glued (show isGlue " AS ".toList = true by decide) hname)
    (T.firm_glue (show isGlue "_include ON TRUE".toList = true by decide))
  have hall := T.firm_append hjoin hend
  change T.loose (marks (.text ("LEFT JOIN LATERAL (" ++ r.gathered ++ " FROM (") :: qs
    ++ [.text (") AS " ++ (r.name ++ "_row") ++ ") AS " ++ (r.name ++ "_include") ++ " ON TRUE")]))
  simpa using T.loose_of_firm hall

theorem loose_item {r : Relation} (hr : r.Fits T) : T.loose (chars r.item.toList) := by
  have hall := T.loose_append (T.loose_append (T.loose_label hr.name)
    (T.firm_glue (show isGlue "_include.data AS ".toList = true by decide)))
    (T.quoted_label hr.name)
  change T.loose (chars (r.name ++ "_include" ++ ".data AS \"" ++ r.name ++ "\"").toList)
  simpa using hall

end Texture

namespace Builder

variable {T : Texture} {b : Builder} {write : Nat → Except Fault (List Piece)}

/-- What replaces the projection keeps to the texture. -/
def ShapeFits (T : Texture) (shape : Shape) : Prop :=
  ∀ p, shape.projection = some p → T.loose (chars p.toList)

theorem loose_head (hb : b.binding.Fits T) (hc : b.clauses.Fits T) (hw : T.Writes write)
    {shape : Shape} (hshape : ShapeFits T shape) {ps : List Piece}
    (h : b.head write shape = .ok ps) : T.loose (marks ps) := by
  have hfrom : T.firm (chars (" FROM " ++ b.binding.table).toList) := by
    rw [String.toList_append]
    exact T.firm_glue (glue_append (by decide) (plain_of_glue hb.table))
  unfold head at h
  simp only at h
  split at h
  · next p hprojection =>
      obtain rfl := Except.ok.inj h
      have hselect := T.glued (show isGlue "SELECT ".toList = true by decide) (hshape p hprojection)
      have hall := T.firm_append hselect hfrom
      change T.loose (marks [.text ("SELECT " ++ p ++ " FROM " ++ b.binding.table)])
      simpa using T.loose_of_firm hall
  · split at h
    · obtain rfl := Except.ok.inj h
      simpa using hb.selectAll
    · obtain ⟨selects, hselects, heq⟩ := bind_ok h
      obtain rfl := Except.ok.inj heq
      have hselected : ∀ qs ∈ selects, T.loose (marks qs) := by
        intro qs hqs
        obtain ⟨p, hp, hok⟩ := exists_left_of_mapM hselects hqs
        exact hc (.select p) hp write hw qs hok
      have hown : ∀ qs ∈ (if selects.isEmpty then [[Piece.text s!"{b.binding.table}.*"]]
          else selects), T.loose (marks qs) := by
        split
        · refine List.forall_mem_singleton.mpr ?_
          have hstar : ".*".toList.all isPlain = true := by decide
          have hglue := T.loose_glue (glue_append hb.table hstar)
          change T.loose (marks [.text (b.binding.table ++ ".*")])
          simpa using hglue
        · exact hselected
      have hitems : ∀ qs ∈ b.clauses.includes.map (fun x => [Piece.text x.1.item]),
          T.loose (marks qs) := by
        intro qs hqs
        obtain ⟨x, hx, rfl⟩ := List.mem_map.mp hqs
        simpa using T.loose_item (hc (.include_ x.1 x.2) hx).1
      have hjoined := T.loose_joined (show isGlue ", ".toList = true by decide)
        (List.forall_mem_append.mpr ⟨hown, hitems⟩)
      have hword : isGlue (if b.clauses.distinct then "SELECT DISTINCT " else "SELECT ").toList =
          true := by
        split <;> decide
      have hall := T.firm_append (T.glued hword hjoined) hfrom
      refine T.loose_of_firm ?_
      rw [List.cons_append, marks_text, marks_append, ← List.append_assoc]
      change T.firm (_ ++ _ ++ marks [.text (" FROM " ++ b.binding.table)])
      rw [marks_text, marks_nil, List.append_nil]
      exact hall

theorem loose_includes (hb : b.binding.Fits T) (hc : b.clauses.Fits T) (hw : T.Writes write)
    {shape : Shape} {pss : List (List Piece)} (h : b.includes write shape = .ok pss) :
    ∀ ps ∈ pss, T.loose (marks ps) := by
  unfold includes at h
  split at h
  · obtain rfl := Except.ok.inj h
    exact List.forall_mem_nil _
  · intro ps hps
    obtain ⟨x, hx, hok⟩ := exists_left_of_mapM h hps
    obtain ⟨hr, ho⟩ := hc (.include_ x.1 x.2) hx
    exact T.takes_lateral hr ho hb.table write hw ps hok

theorem firm_connected {rest : List (Link × List Piece)}
    (all : ∀ x ∈ rest, T.loose (marks x.2)) :
    T.firm (marks (rest.flatMap fun (link, ps) => .text s!" {link.sql} " :: ps)) := by
  induction rest with
  | nil => exact T.firm_nil
  | cons x rest ih =>
      have hrest := ih fun y hy => all y (List.mem_cons_of_mem x hy)
      have hglue : isGlue (s!" {x.1.sql} ").toList = true := by
        cases x.1 <;> decide
      rw [List.flatMap_cons, marks_append, marks_text]
      exact T.firm_append (T.glued hglue (all x List.mem_cons_self)) hrest

theorem loose_connect {conditions : List (Link × List Piece)}
    (all : ∀ x ∈ conditions, T.loose (marks x.2)) : T.loose (marks (connect conditions)) := by
  cases conditions with
  | nil => exact T.loose_nil
  | cons x rest =>
      rw [connect, marks_append]
      have hrest := firm_connected fun y hy => all y (List.mem_cons_of_mem x hy)
      exact T.loose_append (all x List.mem_cons_self) hrest

theorem loose_user (hc : b.clauses.Fits T) (hw : T.Writes write)
    {user : List (Link × List Piece)}
    (h : (b.clauses.conditions.mapM fun c => return (c.link, ← expand write c.phrase)) = .ok user) :
    T.loose (marks (connect user)) := by
  refine loose_connect fun x hx => ?_
  obtain ⟨c, hmem, hok⟩ := exists_left_of_mapM h hx
  obtain ⟨ps, hps, heq⟩ := bind_ok hok
  obtain rfl := Except.ok.inj heq
  exact hc (.condition c) hmem write hw ps hps

theorem glue_guard (table : isGlue b.binding.table.toList = true) {g : String}
    (h : b.guard? = some g) : isGlue g.toList = true := by
  have hcolumn : isGlue (Naming.qualify b.binding.table "deleted_at").toList = true :=
    glue_qualify table (by decide)
  unfold guard? at h
  simp only at h
  split at h
  · cases h
  · split at h
    · cases h
      exact glue_concat hcolumn (by decide)
    · cases h
      exact glue_concat hcolumn (by decide)
    · cases h

theorem loose_guarded (table : isGlue b.binding.table.toList = true) {user : List Piece}
    (h : T.loose (marks user)) : ∀ ps ∈ guarded b.guard? user, T.loose (marks ps) := by
  intro ps hps
  unfold guarded at hps
  split at hps
  · split at hps
    · cases hps
    · cases hps
      exact h
  · next g hguard =>
      have hg := T.firm_glue (glue_guard table hguard)
      have hand : isGlue " AND ".toList = true := by decide
      split at hps
      · cases hps
        simpa using T.loose_of_firm hg
      · split at hps
        · cases hps
          have hall := T.firm_append hg (T.glued hand (T.loose_of_firm (T.enclosed h)))
          simpa using T.loose_of_firm hall
        · cases hps
          have hall := T.firm_append hg (T.glued hand h)
          simpa using T.loose_of_firm hall

theorem loose_conditions (hb : b.binding.Fits T) (hc : b.clauses.Fits T) (hw : T.Writes write)
    {filter : Option (List Piece)} (h : b.conditions write = .ok filter) :
    ∀ ps ∈ filter, T.loose (marks ps) := by
  obtain ⟨user, huser, heq⟩ := bind_ok h
  obtain rfl := Except.ok.inj heq
  exact loose_guarded hb.table (loose_user hc hw huser)

theorem mem_asText {vs : List Value} {ss : List String} (h : vs.mapM Value.asText? = some ss) :
    ∀ s ∈ ss, .text s ∈ vs := by
  induction vs generalizing ss with
  | nil =>
      obtain rfl := Option.some.inj h
      exact List.forall_mem_nil _
  | cons v vs ih =>
      rw [List.mapM_cons] at h
      obtain ⟨t, ht, h₁⟩ := Option.bind_eq_some_iff.mp h
      obtain ⟨ts, hts, heq⟩ := Option.bind_eq_some_iff.mp h₁
      obtain rfl := Option.some.inj heq
      intro s hs
      rcases List.mem_cons.mp hs with rfl | hs
      · cases v with
        | text s' =>
            obtain rfl := Option.some.inj ht
            exact List.mem_cons_self
        | _ => cases ht
      · exact List.mem_cons_of_mem v (ih hts s hs)

theorem loose_texts {word : String} (hword : isGlue word.toList = true) {vs : List Value}
    (fits : ∀ v ∈ vs, T.TextFits v) {pss : List (List Piece)} (h : texts word vs = .ok pss) :
    ∀ ps ∈ pss, T.loose (marks ps) := by
  unfold texts at h
  split at h
  · cases h
  · obtain rfl := Except.ok.inj h
    exact List.forall_mem_nil _
  · next ss _ hss =>
      obtain rfl := Except.ok.inj h
      refine List.forall_mem_singleton.mpr ?_
      have hjoin := T.loose_join (show isGlue ", ".toList = true by decide)
        fun s hs => fits (.text s) (mem_asText hss s hs) s rfl
      simpa using T.loose_of_firm (T.glued hword hjoin)

theorem loose_grouping (hc : b.clauses.Fits T) (hw : T.Writes write) {shape : Shape}
    {pss : List (List Piece)} (h : b.grouping write shape = .ok pss) :
    ∀ ps ∈ pss, T.loose (marks ps) := by
  unfold grouping at h
  split at h
  · obtain rfl := Except.ok.inj h
    exact List.forall_mem_nil _
  · obtain ⟨groups, hgroups, h₁⟩ := bind_ok h
    have hgrouped := loose_texts (by decide) (fun v hv => hc (.group v) hv) hgroups
    split at h₁
    · obtain rfl := Except.ok.inj h₁
      exact hgrouped
    · obtain ⟨havings, hhavings, heq⟩ := bind_ok h₁
      obtain rfl := Except.ok.inj heq
      have hall : ∀ ps ∈ havings, T.loose (marks ps) := by
        intro ps hps
        obtain ⟨p, hp, hok⟩ := exists_left_of_mapM hhavings hps
        exact hc (.having p) hp write hw ps hok
      have hjoined := T.loose_joined (show isGlue " AND ".toList = true by decide) hall
      have hhaving := T.glued (show isGlue "HAVING ".toList = true by decide) hjoined
      refine List.forall_mem_append.mpr ⟨hgrouped, List.forall_mem_singleton.mpr ?_⟩
      simpa using T.loose_of_firm hhaving

theorem loose_ordering (hc : b.clauses.Fits T) {shape : Shape} {pss : List (List Piece)}
    (h : b.ordering shape = .ok pss) : ∀ ps ∈ pss, T.loose (marks ps) := by
  unfold ordering at h
  split at h
  · exact loose_texts (by decide) (fun v hv => hc (.order v) hv) h
  · obtain rfl := Except.ok.inj h
    exact List.forall_mem_nil _

theorem loose_paging (T : Texture) (b : Builder) (shape : Shape) :
    ∀ ps ∈ b.paging shape, T.loose (marks ps) := by
  have hnumber : ∀ (word : String) (n : Option Int), isGlue word.toList = true →
      ∀ ps ∈ n.toList.map fun n => [Piece.text (word ++ toString n)], T.loose (marks ps) := by
    intro word n hword ps hps
    obtain ⟨m, _, rfl⟩ := List.mem_map.mp hps
    simpa using T.loose_of_firm (T.firm_number hword m)
  have hlimit := fun n => hnumber "LIMIT " n (by decide)
  unfold paging
  split
  · exact List.forall_mem_append.mpr ⟨hlimit _, hnumber "OFFSET " _ (by decide)⟩
  · exact hlimit _

/-- A statement keeps to the texture of what it is made of. -/
theorem loose_pieces (hb : b.binding.Fits T) (hc : b.clauses.Fits T) (hw : T.Writes write)
    {shape : Shape} (hshape : ShapeFits T shape) {ps : List Piece}
    (h : b.pieces write shape = .ok ps) : T.loose (marks ps) := by
  obtain ⟨parts, hparts, rfl⟩ := map_ok h
  obtain ⟨start, hstart, h₁⟩ := bind_ok hparts
  obtain ⟨laterals, hlaterals, h₂⟩ := bind_ok h₁
  obtain ⟨filter, hfilter, h₃⟩ := bind_ok h₂
  obtain ⟨groups, hgroups, h₄⟩ := bind_ok h₃
  obtain ⟨order, horder, heq⟩ := bind_ok h₄
  obtain rfl := Except.ok.inj heq
  refine T.loose_joined (by decide) ?_
  have hjoins : ∀ qs ∈ b.clauses.joins.map (fun j => [Piece.text j]), T.loose (marks qs) := by
    intro qs hqs
    obtain ⟨j, hj, rfl⟩ := List.mem_map.mp hqs
    have hjoin : T.loose (chars j.toList) := hc (.join j) hj
    simpa using hjoin
  have hwhere : ∀ qs ∈ filter.toList.map (Piece.text "WHERE " :: ·), T.loose (marks qs) := by
    intro qs hqs
    obtain ⟨rs, hrs, rfl⟩ := List.mem_map.mp hqs
    have hconditions := loose_conditions hb hc hw hfilter rs (Option.mem_toList.mp hrs)
    simpa using T.loose_of_firm (T.glued (show isGlue "WHERE ".toList = true by decide) hconditions)
  intro qs hqs
  simp only [List.cons_append, List.append_assoc, List.mem_cons, List.mem_append] at hqs
  rcases hqs with rfl | hqs | hqs | hqs | hqs | hqs | hqs
  · exact loose_head hb hc hw hshape hstart
  · exact hjoins qs hqs
  · exact loose_includes hb hc hw hlaterals qs hqs
  · exact hwhere qs hqs
  · exact loose_grouping hc hw hgroups qs hqs
  · exact loose_ordering hc horder qs hqs
  · exact loose_paging T b shape qs hqs

theorem loose_deletion (hb : b.binding.Fits T) (hc : b.clauses.Fits T) (hw : T.Writes write)
    {ps : List Piece} (h : b.deletion write = .ok ps) : T.loose (marks ps) := by
  obtain ⟨filter, hfilter, heq⟩ := bind_ok h
  obtain rfl := Except.ok.inj heq
  have hstart : T.firm (chars ("DELETE FROM " ++ b.binding.table).toList) := by
    rw [String.toList_append]
    exact T.firm_glue (glue_append (by decide) (plain_of_glue hb.table))
  cases filter with
  | none =>
      change T.loose (marks [.text ("DELETE FROM " ++ b.binding.table)])
      simpa using T.loose_of_firm hstart
  | some rs =>
      have hrs := loose_conditions hb hc hw hfilter rs rfl
      have hall := T.firm_append hstart
        (T.glued (show isGlue " WHERE ".toList = true by decide) hrs)
      change T.loose (marks (.text ("DELETE FROM " ++ b.binding.table) :: .text " WHERE " :: rs))
      simpa using T.loose_of_firm hall

theorem plan_fits {t : Terminal} {wanted : Plan} (h : b.plan t = .ok wanted) :
    ShapeFits T wanted.shape ∧
      ∀ ps, T.loose (marks ps) → T.loose (marks (wanted.wrap ps)) := by
  have hplain : ∀ {plain : Plan}, plain.shape.projection = none → plain.wrap = id →
      ShapeFits T plain.shape ∧ ∀ ps, T.loose (marks ps) → T.loose (marks (plain.wrap ps)) := by
    intro plain hnone hwrap
    refine ⟨fun p hp => ?_, fun ps hps => ?_⟩
    · rw [hnone] at hp
      cases hp
    · rw [hwrap]
      exact hps
  unfold plan at h
  split at h
  · cases h
    exact hplain rfl rfl
  · cases h
    exact hplain rfl rfl
  · cases h
    exact hplain rfl rfl
  · split at h
    · cases h
      refine ⟨fun p hp => (by cases hp), fun ps hps => ?_⟩
      have hcall := T.firm_call (show isGlue "SELECT COUNT".toList = true by decide)
        (show "*".toList.all isPlain = true by decide)
        (T.glued (show isGlue " AS count FROM ".toList = true by decide)
          (T.loose_of_firm (T.enclosed hps)))
      have hall := T.firm_append hcall (T.firm_glue (show isGlue " AS sub".toList = true by decide))
      simpa using T.loose_of_firm hall
    · cases h
      refine ⟨fun p hp => ?_, fun _ hps => hps⟩
      cases hp
      have hcall := T.firm_call (show isGlue "COUNT".toList = true by decide)
        (show "*".toList.all isPlain = true by decide)
        (T.firm_glue (show isGlue " AS count".toList = true by decide))
      simpa using T.loose_of_firm hcall
  · cases h
    refine ⟨fun p hp => ?_, fun _ hps => hps⟩
    cases hp
    exact T.loose_plain (by decide)
  · obtain ⟨name, hname, heq⟩ := bind_ok h
    cases heq
    refine ⟨fun p hp => ?_, fun _ hps => hps⟩
    cases hp
    exact T.loose_glue (glue_of_isColumnReference (readColumn_ok hname).2)
  · obtain ⟨agg, _, h₁⟩ := bind_ok h
    obtain ⟨target, htarget, heq⟩ := bind_ok h₁
    cases heq
    refine ⟨fun p hp => ?_, fun _ hps => hps⟩
    cases hp
    have hcall := T.firm_call (glue_aggregate agg)
      (plain_of_glue (glue_target (readTarget_ok htarget).2))
      (T.firm_glue (show isGlue " AS value".toList = true by decide))
    change T.loose (chars (agg.sql ++ "(" ++ target ++ ") AS value").toList)
    simpa using T.loose_of_firm hcall
  · split at h
    · cases h
      exact hplain rfl rfl
    · cases h

end Builder

namespace Shelf

/-- Every builder of the shelf keeps to the texture. -/
abbrev Fits (T : Texture) (s : Shelf) : Prop :=
  s.Every fun b c => b.Fits T ∧ c.Fits T

theorem writes_write {T : Texture} {s : Shelf} (h : s.Fits T) (fuel : Nat) :
    T.Writes (s.write fuel) := by
  induction fuel with
  | zero =>
      intro id ps hps
      cases hps
  | succ fuel ih =>
      intro id ps hps
      rw [write] at hps
      split at hps
      · cases hps
      · next b hget =>
          obtain ⟨hb, hc⟩ := h.get hget
          exact Builder.loose_pieces hb hc ih (fun p hp => by cases hp) hps

/-- Pieces have every texture that the texts of the calls have. -/
def Woven (calls : List Call) (ps : List Piece) : Prop :=
  ∀ T : Texture, (∀ call ∈ calls, call.Fits T) → T.loose (marks ps)

theorem toSql_ok {s : Shelf} {b : Builder} {st : Statement.Bound} (h : s.toSql b = .ok st) :
    ∃ ps, b.pieces s.embedded {} = .ok ps ∧ st = bind ps := by
  unfold toSql at h
  split at h
  · cases h
  · obtain ⟨ps, hps, heq⟩ := map_ok h
    exact ⟨ps, hps, heq.symm⟩

/-- What is sent is written as its plan says, and put into the frame of its plan. -/
theorem send_written {s : Shelf} {id : Nat} {t : Terminal} {sent : Sent}
    (h : (s.send id t).2 = .ok sent) :
    ∃ b plan ps, s.get? id = some b ∧ b.plan t = .ok plan ∧
      (if plan.deletes then b.deletion (s.send id t).1.embedded
        else b.pieces (s.send id t).1.embedded plan.shape) = .ok ps ∧
      sent.statement = bind (plan.wrap ps) := by
  rcases s.send_cases id t with ⟨e, hrefused⟩ | ⟨b, plan, hget, hplan, _, hsent⟩
  · rw [hrefused] at h
    cases h
  · rw [hsent] at h ⊢
    obtain ⟨ps, hps, rfl⟩ := map_ok h
    exact ⟨b, plan, ps, hget, hplan, hps, rfl⟩

/-- What is sent is written by the builder itself, and put into the frame of its plan. -/
theorem send_ok {s : Shelf} {id : Nat} {t : Terminal} {sent : Sent}
    (h : (s.send id t).2 = .ok sent) :
    ∃ b plan ps, s.get? id = some b ∧ b.plan t = .ok plan ∧
      (b.deletion (s.send id t).1.embedded = .ok ps ∨
        b.pieces (s.send id t).1.embedded plan.shape = .ok ps) ∧
      sent.statement = bind (plan.wrap ps) := by
  obtain ⟨b, plan, ps, hget, hplan, hps, hstatement⟩ := send_written h
  refine ⟨b, plan, ps, hget, hplan, ?_, hstatement⟩
  split at hps
  · exact .inl hps
  · exact .inr hps

theorem fits_send {T : Texture} {s : Shelf} (h : s.Fits T) (id : Nat) (t : Terminal) :
    (s.send id t).1.Fits T := by
  rcases s.send_cases id t with ⟨e, hrefused⟩ | ⟨b, plan, hget, _, _, hsent⟩
  · rw [hrefused]
    exact h
  · have hbuilder : b.binding.Fits T ∧ b.clauses.Fits T := h.get hget
    rw [hsent]
    exact h.set id hbuilder

theorem woven_toSql {calls : List Call} {id : Nat} {b : Builder}
    (hget : (run calls).get? id = some b) {st : Statement.Bound}
    (h : (run calls).toSql b = .ok st) : ∃ ps, st = bind ps ∧ Woven calls ps := by
  obtain ⟨ps, hps, rfl⟩ := toSql_ok h
  refine ⟨ps, rfl, fun T fits => ?_⟩
  have hrun : (run calls).Fits T := fits_run fits
  obtain ⟨hb, hc⟩ := hrun.get hget
  exact Builder.loose_pieces hb hc (writes_write hrun _) (fun p hp => by cases hp) hps

theorem woven_send {calls : List Call} {id : Nat} {t : Terminal} {sent : Sent}
    (h : ((run calls).send id t).2 = .ok sent) :
    ∃ ps, sent.statement = bind ps ∧ Woven calls ps := by
  obtain ⟨b, plan, ps, hget, hplan, hwritten, hstatement⟩ := send_ok h
  refine ⟨plan.wrap ps, hstatement, fun T fits => ?_⟩
  have hrun : (run calls).Fits T := fits_run fits
  obtain ⟨hb, hc⟩ := hrun.get hget
  obtain ⟨hshape, hwrap⟩ := Builder.plan_fits hplan
  have hw := writes_write (fits_send hrun id t) ((run calls).send id t).1.builders.length
  refine hwrap ps ?_
  rcases hwritten with hdeletion | hpieces
  · exact Builder.loose_deletion hb hc hw hdeletion
  · exact Builder.loose_pieces hb hc hw hshape hpieces

end Shelf

end TableLoom.Query
