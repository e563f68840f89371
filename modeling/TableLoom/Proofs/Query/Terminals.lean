import TableLoom.Proofs.Query.Nesting
import TableLoom.Proofs.Query.Sections

/-!
Every terminal operation addresses the rows that the statement of the builder addresses. Some send that
statement, some leave its last sections out, and the rest keep its joins and its filter.
-/

namespace TableLoom.Query

/-- A statement with these joins and this filter, whose values come after `k` others. -/
def Asks (joins : List String) (filter : List (List Piece)) (k : Nat) (st : Statement.Bound) : Prop :=
  ∃ head includes back before after,
    st.sql = Text.join " " (head :: joins ++ includes ++ numberedFrom (k + 1) filter ++ back) ∧
    st.params = before ++ filter.flatMap values ++ after ∧ before.length = k

theorem asks_sections (head : List Piece) (joins : List String)
    (includes filter back : List (List Piece)) :
    Asks joins filter ((values head).length + (includes.flatMap values).length)
      (statementOf (head :: joins.map (fun j => [.text j]) ++ includes ++ filter ++ back)) := by
  let k := (values head).length + (includes.flatMap values).length
  have htext : numberedFrom 1 (head :: joins.map (fun j => [.text j]) ++ includes ++ filter ++ back) =
      sqlFrom 1 head :: joins ++ numberedFrom ((values head).length + 1) includes
        ++ numberedFrom (k + 1) filter
        ++ numberedFrom (k + (filter.flatMap values).length + 1) back := by
    simp only [numberedFrom_append, numberedFrom, numberedFrom_texts, flatMap_values_texts, List.flatMap_append,
      List.flatMap_cons, List.length_append, List.append_nil, k]
    simp only [Nat.add_comm, Nat.add_left_comm]
  refine ⟨_, _, _, values head ++ includes.flatMap values, back.flatMap values,
    congrArg (Text.join " ") htext, ?_, List.length_append⟩
  simp [statementOf, flatMap_values_texts]

theorem bind_around (front back : String) (ps : List Piece) :
    bind (.text front :: ps ++ [.text back]) = ⟨front ++ (bind ps).sql ++ back, (bind ps).params⟩ := by
  rw [bind, sqlFrom_append, values_append]
  simp [bind, sqlFrom, values]

/-- The terminal operations that do not ask for the rows themselves. -/
def Terminal.Condenses (b : Builder) : Terminal → Prop
  | .count => b.clauses.distinct = false
  | .exists_ | .pluck _ | .aggregate .. | .delete => True
  | .fetch _ | .fetchOne _ | .fetchRaw => False

/-- What they send behind the filter. -/
def Terminal.tail (parts : Section → List (List Piece)) : Terminal → List (List Piece)
  | .exists_ => [[.text "LIMIT 1"]]
  | .pluck _ => parts .ordering ++ parts .limit ++ parts .offset
  | _ => []

namespace Builder

variable {b : Builder} {write : Nat → Except Fault (List Piece)}
  {parts : Section → List (List Piece)}

theorem grouping_shaped (h : ∀ sec, b.written write sec = .ok (parts sec)) (shape : Shape) :
    b.grouping write shape = .ok (if shape.grouping then parts .grouping ++ parts .having else []) := by
  have hgroups : texts "GROUP BY " b.clauses.groupBy = .ok (parts .grouping) := h .grouping
  have hhaving := h .having
  unfold grouping
  cases shape.grouping with
  | false => rfl
  | true =>
      by_cases hnone : b.clauses.havings.isEmpty = true
      · rw [written, if_pos hnone] at hhaving
        rw [hgroups, ← Except.ok.inj hhaving, List.append_nil]
        simp [hnone, Bind.bind, Except.bind, pure, Except.pure]
      · rw [written, if_neg hnone] at hhaving
        obtain ⟨havings, hhavings, heq⟩ := map_ok hhaving
        rw [hgroups, ← heq, hhavings]
        simp [hnone, Bind.bind, Except.bind, pure, Except.pure]

/-- The sections of a statement of any shape, put together from those of the plain one. -/
theorem sections_shaped (h : ∀ sec, b.written write sec = .ok (parts sec)) (shape : Shape) :
    b.sections write shape = .ok (
      (match shape.projection with
        | none => parts .head ++ parts .joins ++ parts .includes
        | some p => [.text s!"SELECT {p} FROM {b.binding.table}"] :: parts .joins)
      ++ parts .filter ++ (if shape.grouping then parts .grouping ++ parts .having else [])
      ++ (if shape.ordering then parts .ordering else []) ++ b.paging shape) := by
  obtain ⟨start, hstart, hhead⟩ := map_ok (h .head)
  obtain ⟨filter, hfilter, hwhere⟩ := map_ok (h .filter)
  have hjoins := Except.ok.inj (h .joins)
  have hincludes : b.includes write {} = .ok (parts .includes) := h .includes
  have horder : texts "ORDER BY " b.clauses.orderBy = .ok (parts .ordering) := h .ordering
  have hordering : b.ordering shape = .ok (if shape.ordering then parts .ordering else []) := by
    unfold ordering
    split
    · exact horder
    · rfl
  unfold sections
  rw [hfilter, grouping_shaped h, hordering, ← hhead, ← hwhere, ← hjoins]
  -- A projection of its own replaces the head, and the includes are left out with it.
  cases hprojection : shape.projection with
  | none =>
      have hhead' : b.head write shape = .ok start := by
        rw [← hstart]
        simp only [head, hprojection]
      have hincludes' : b.includes write shape = .ok (parts .includes) := by
        rw [← hincludes]
        simp only [includes, hprojection]
      rw [hhead', hincludes']
      rfl
  | some p =>
      have hhead' : b.head write shape = .ok [.text s!"SELECT {p} FROM {b.binding.table}"] := by
        simp only [head, hprojection]
        rfl
      have hincludes' : b.includes write shape = .ok [] := by
        simp only [includes, hprojection]
        rfl
      rw [hhead', hincludes']
      refine congrArg Except.ok ?_
      simp

theorem paging_limited (h : ∀ sec, b.written write sec = .ok (parts sec)) :
    b.paging { limit := some 1 } = [.text "LIMIT 1"] :: parts .offset := by
  rw [← Except.ok.inj (h .offset)]
  rfl

theorem paging_plain (h : ∀ sec, b.written write sec = .ok (parts sec)) :
    b.paging {} = parts .limit ++ parts .offset := by
  rw [← Except.ok.inj (h .offset), ← Except.ok.inj (h .limit)]
  rfl

/-- What comes behind the grouping has no values. -/
theorem values_tail (h : ∀ sec, b.written write sec = .ok (parts sec)) {sec : Section}
    (tail : sec ∈ [Section.ordering, .limit, .offset]) : (parts sec).flatMap values = [] := by
  have hsection := h sec
  simp only [List.mem_cons, List.not_mem_nil, or_false] at tail
  rcases tail with rfl | rfl | rfl
  · rw [written, texts] at hsection
    split at hsection
    · cases hsection
    · rw [← Except.ok.inj hsection]
      rfl
    · rw [← Except.ok.inj hsection]
      rfl
  · rw [← Except.ok.inj hsection]
    cases b.clauses.limit <;> rfl
  · rw [← Except.ok.inj hsection]
    cases b.clauses.offset <;> rfl

/-- A deletion is the filter behind the name of the table. -/
theorem deletion_bind (b : Builder) (write : Nat → Except Fault (List Piece)) :
    (b.deletion write).map bind = (b.written write .filter).map fun filter =>
      statementOf ([.text s!"DELETE FROM {b.binding.table}"] :: filter) := by
  unfold deletion written
  cases b.conditions write with
  | error e => rfl
  | ok filter =>
    refine congrArg Except.ok ?_
    dsimp only
    rw [← bind_joined]
    refine bind_eq_of_marks ?_
    cases filter with
    | none => rfl
    | some ps => simp [joined]

theorem deletion_sections (h : ∀ sec, b.written write sec = .ok (parts sec)) :
    ∃ ps, b.deletion write = .ok ps ∧
      bind ps = statementOf ([.text s!"DELETE FROM {b.binding.table}"] :: parts .filter) := by
  have hbind := b.deletion_bind write
  rw [h .filter] at hbind
  exact map_ok hbind

/-- The terminal operations that condense the rows send another projection, or delete. -/
theorem plan_condenses (h : ∀ sec, b.written write sec = .ok (parts sec)) {t : Terminal}
    (condenses : t.Condenses b) {plan : Plan} (hplan : b.plan t = .ok plan) :
    plan.wrap = id ∧ ((plan.deletes = true ∧ b.clauses.joins = [] ∧ t.tail parts = []) ∨
      (plan.deletes = false ∧ (∃ p, plan.shape.projection = some p) ∧ plan.shape.grouping = false ∧
        (if plan.shape.ordering then parts .ordering else []) ++ b.paging plan.shape = t.tail parts)) := by
  cases t with
  | fetch model => cases condenses
  | fetchOne model => cases condenses
  | fetchRaw => cases condenses
  | count =>
      have hdistinct : b.clauses.distinct = false := condenses
      simp only [Builder.plan, hdistinct, Bool.false_eq_true, ↓reduceIte] at hplan
      obtain rfl := Except.ok.inj hplan
      exact ⟨rfl, .inr ⟨rfl, ⟨_, rfl⟩, rfl, rfl⟩⟩
  | exists_ =>
      obtain rfl := Except.ok.inj hplan
      exact ⟨rfl, .inr ⟨rfl, ⟨_, rfl⟩, rfl, rfl⟩⟩
  | pluck column =>
      obtain ⟨name, _, heq⟩ := bind_ok hplan
      obtain rfl := Except.ok.inj heq
      refine ⟨rfl, .inr ⟨rfl, ⟨_, rfl⟩, rfl, ?_⟩⟩
      rw [Terminal.tail, List.append_assoc]
      exact congrArg (parts .ordering ++ ·) (paging_plain h)
  | aggregate function column =>
      obtain ⟨_, _, h₁⟩ := bind_ok hplan
      obtain ⟨_, _, heq⟩ := bind_ok h₁
      obtain rfl := Except.ok.inj heq
      exact ⟨rfl, .inr ⟨rfl, ⟨_, rfl⟩, rfl, rfl⟩⟩
  | delete =>
      rw [Builder.plan] at hplan
      split at hplan
      · next hnone =>
          obtain rfl := Except.ok.inj hplan
          rw [Bool.and_eq_true, List.isEmpty_iff] at hnone
          exact ⟨rfl, .inl ⟨rfl, hnone.1, rfl⟩⟩
      · cases hplan

theorem asks_plain (h : ∀ sec, b.written write sec = .ok (parts sec)) :
    ∃ k, Asks b.clauses.joins (parts .filter) k (statementOf (Section.all.flatMap parts)) := by
  obtain ⟨start, _, hhead⟩ := map_ok (h .head)
  have hasks := asks_sections start b.clauses.joins (parts .includes) (parts .filter)
    (parts .grouping ++ parts .having ++ parts .ordering ++ parts .limit ++ parts .offset)
  rw [Except.ok.inj (h .joins)] at hasks
  exact ⟨_, by simpa [Section.all, ← hhead] using hasks⟩

/-- What condenses the rows is sent with one text in front of the joins, and the filter behind them. -/
theorem condensed_sections (h : ∀ sec, b.written write sec = .ok (parts sec)) {t : Terminal}
    (condenses : t.Condenses b) {plan : Plan} (hplan : b.plan t = .ok plan) :
    ∃ ps head, (if plan.deletes then b.deletion write else b.pieces write plan.shape) = .ok ps ∧
      bind (plan.wrap ps) =
        statementOf ([.text head] :: parts .joins ++ parts .filter ++ t.tail parts) := by
  obtain ⟨hwrap, ⟨hdeletes, hnone, htail⟩ | ⟨hkeeps, ⟨p, hprojection⟩, hgrouping, htail⟩⟩ :=
    plan_condenses h condenses hplan
  · obtain ⟨ps, hps, hbind⟩ := deletion_sections h
    have hjoins : parts .joins = [] := by
      rw [← Except.ok.inj (h .joins), hnone]
      rfl
    rw [hdeletes, hwrap, hjoins, htail]
    exact ⟨ps, _, hps, hbind.trans (congrArg statementOf (List.append_nil _).symm)⟩
  · have hsections := sections_shaped h plan.shape
    rw [hprojection, hgrouping] at hsections
    rw [hkeeps, hwrap, pieces, hsections, ← htail]
    refine ⟨_, s!"SELECT {p} FROM {b.binding.table}", rfl, ?_⟩
    rw [id_eq, bind_joined]
    simp

theorem asks_condensed (h : ∀ sec, b.written write sec = .ok (parts sec)) (head : String)
    (tail : List (List Piece)) :
    Asks b.clauses.joins (parts .filter) 0
      (statementOf ([.text head] :: parts .joins ++ parts .filter ++ tail)) := by
  have hasks := asks_sections [.text head] b.clauses.joins [] (parts .filter) tail
  rw [Except.ok.inj (h .joins)] at hasks
  simpa [values] using hasks

end Builder

namespace Shelf

variable {s : Shelf} {id : Nat} {b : Builder}

theorem send_ready (hget : s.get? id = some b) (ready : b.stage = .unbuilt ∨ b.stage = .configuring)
    {t : Terminal} {plan : Builder.Plan} (hplan : b.plan t = .ok plan) :
    (s.send id t).2 = (if plan.deletes then b.deletion s.embedded
      else b.pieces s.embedded plan.shape).map fun ps => ⟨bind (plan.wrap ps), plan.reading⟩ := by
  have hbegin : b.begin_ = .ok { b with stage := .executed } := by
    unfold Builder.begin_
    rcases ready with h | h <;> rw [h]
  rw [send_eq hget, Builder.sends, hplan, hbegin]
  rfl

theorem toSql_ready (ready : b.stage = .unbuilt ∨ b.stage = .configuring) :
    s.toSql b = (b.pieces s.embedded {}).map bind := by
  unfold toSql
  rcases ready with h | h <;> rw [h] <;> rfl

theorem parts_of_toSql {st : Statement.Bound} (h : s.toSql b = .ok st) :
    ∃ parts : Section → List (List Piece), (∀ sec, b.written s.embedded sec = .ok (parts sec)) ∧
      st = statementOf (Section.all.flatMap parts) := by
  have halive : b.stage ≠ .released := by
    intro hreleased
    rw [toSql, hreleased] at h
    cases h
  rw [toSql_eq s halive] at h
  obtain ⟨pss, hpss, rfl⟩ := map_ok h
  have hevery : ∀ sec, ∃ part, b.written s.embedded sec = .ok part := by
    intro sec
    obtain ⟨part, _, hpart⟩ := exists_right_of_mapM hpss (a := sec) (by cases sec <;> decide)
    exact ⟨part, hpart⟩
  choose parts hparts using hevery
  refine ⟨parts, hparts, ?_⟩
  have hall : Section.all.mapM (b.written s.embedded) = .ok (Section.all.map parts) := by
    rw [funext hparts]
    exact List.mapM_pure
  obtain rfl := Except.ok.inj (hpss.symm.trans hall)
  rw [List.flatMap_def]

/-- While a builder is open, all its terminal operations address the rows of the statement that it
returns. Rows are fetched with that statement, and one row with its limit replaced. Distinct rows are
counted in that statement without order and paging. Every other operation sends a statement with the
same joins and the same filter, whose values come after others by a fixed number. -/
theorem terminals_address_same_rows (s : Shelf) (id : Nat) (b : Builder) (hget : s.get? id = some b)
    (ready : b.stage = .unbuilt ∨ b.stage = .configuring) :
    (∀ model, (s.send id (.fetch model)).2 =
      (s.toSql b).map fun st => ⟨st, .records (b.target model)⟩) ∧
    (s.send id .fetchRaw).2 = (s.toSql b).map (fun st => ⟨st, .rows⟩) ∧
    ∀ st, s.toSql b = .ok st → ∃ parts : Section → List (List Piece),
      (∀ sec, b.written s.embedded sec = .ok (parts sec)) ∧
      st = statementOf (Section.all.flatMap parts) ∧
      (∀ model, (s.send id (.fetchOne model)).2 =
        .ok ⟨statementOf (Section.all.flatMap (Function.update parts .limit [[.text "LIMIT 1"]])),
          .firstRecord (b.target model)⟩) ∧
      (b.clauses.distinct = true → ∃ inner, (s.send id .count).2 =
          .ok ⟨⟨"SELECT COUNT(*) AS count FROM (" ++ inner.sql ++ ") AS sub", inner.params⟩, .number⟩ ∧
        inner = statementOf ((Section.all.filter (· ∉ [.ordering, .limit, .offset])).flatMap parts) ∧
        inner.params = st.params) ∧
      ∃ k, Asks b.clauses.joins (parts .filter) k st ∧
        ∀ t plan, t.Condenses b → b.plan t = .ok plan →
          ∃ sent head, (s.send id t).2 = .ok sent ∧ sent.statement =
            statementOf ([.text head] :: parts .joins ++ parts .filter ++ t.tail parts) ∧
          Asks b.clauses.joins (parts .filter) 0 sent.statement := by
  refine ⟨fun model => ?_, ?_, fun st hst => ?_⟩
  · rw [send_ready hget ready rfl, toSql_ready ready]
    cases b.pieces s.embedded {} <;> rfl
  · rw [send_ready hget ready rfl, toSql_ready ready]
    cases b.pieces s.embedded {} <;> rfl
  obtain ⟨parts, hparts, rfl⟩ := parts_of_toSql hst
  refine ⟨parts, hparts, rfl, fun model => ?_, fun hdistinct => ?_, ?_⟩
  · have hsections := Builder.sections_shaped hparts { limit := some 1 }
    rw [Builder.paging_limited hparts] at hsections
    rw [send_ready hget ready rfl]
    change ((b.sections s.embedded { limit := some 1 }).map _).map _ = _
    rw [hsections]
    change Except.ok (Sent.mk (bind (joined _ _)) _) = _
    rw [bind_joined]
    simp [Section.all, Function.update]
  · have hsections := Builder.sections_shaped hparts { ordering := false, paging := false }
    have hpaging : b.paging { ordering := false, paging := false } = [] := rfl
    have htail := fun sec => @Builder.values_tail _ _ _ hparts sec
    have hplan : b.plan .count = _ := if_pos hdistinct
    rw [send_ready hget ready hplan]
    change ∃ inner, ((b.sections s.embedded { ordering := false, paging := false }).map _).map _ = _ ∧ _
    rw [hsections]
    refine ⟨_, ?_, rfl, by simp [statementOf, Section.all, htail]⟩
    change Except.ok (Sent.mk (bind (.text _ :: joined _ _ ++ [.text _])) _) = _
    rw [bind_around, bind_joined]
    simp [Section.all, hpaging]
  · obtain ⟨k, hplain⟩ := Builder.asks_plain hparts
    refine ⟨k, hplain, fun t plan condenses hplan => ?_⟩
    obtain ⟨ps, head, hps, hbind⟩ := Builder.condensed_sections hparts condenses hplan
    refine ⟨⟨bind (plan.wrap ps), plan.reading⟩, head, ?_, hbind, ?_⟩
    · rw [send_ready hget ready hplan, hps]
      rfl
    · rw [hbind]
      exact Builder.asks_condensed hparts head _

/-- A value in the projection, so that those of the filter come second. -/
def listing : List Call :=
  [.make { label := "Posts", table := "posts", selectAll := "" } .null,
   .make { label := "Comments", table := "comments", selectAll := "" } .null,
   .clause 1 (.condition .and (.text "spam") (.text "eq") (.bool false)),
   .clause 0 (.selectRaw (.text "COALESCE(title, ?)") [.text "none"]),
   .clause 0 (.join (.text "users") (.text "posts.user_id") (.text "users.id") (.text "inner")),
   .clause 0 (.condition .and (.text "views") (.text "gt") (.int 10)),
   .clause 0 (.existence false (some 1)), .clause 0 (.orderBy (.text "title") (.text "desc")),
   .clause 0 (.limit (.int 5))]

theorem terminals_address_same_rows_listing :
    ∃ b st one sent joins filter k, (run listing).get? 0 = some b ∧ b.stage = .configuring ∧
      (run listing).toSql b = .ok st ∧
      ((run listing).send 0 .fetchRaw).2 = .ok ⟨st, .rows⟩ ∧
      ((run listing).send 0 (.fetchOne none)).2 = .ok one ∧
      ((run listing).send 0 .count).2 = .ok sent ∧
      Asks joins filter k st ∧ Asks joins filter 0 sent.statement ∧
      st.sql = "SELECT COALESCE(title, $1) FROM posts INNER JOIN users ON posts.user_id = users.id "
        ++ "WHERE views > $2 AND EXISTS (SELECT comments.* FROM comments WHERE spam = $3) "
        ++ "ORDER BY title DESC LIMIT 5" ∧
      one.statement.sql = "SELECT COALESCE(title, $1) FROM posts INNER JOIN users "
        ++ "ON posts.user_id = users.id WHERE views > $2 AND EXISTS (SELECT comments.* FROM comments "
        ++ "WHERE spam = $3) ORDER BY title DESC LIMIT 1" ∧
      sent.statement.sql = "SELECT COUNT(*) AS count FROM posts INNER JOIN users "
        ++ "ON posts.user_id = users.id WHERE views > $1 AND EXISTS (SELECT comments.* FROM comments "
        ++ "WHERE spam = $2)" := by
  obtain ⟨b, hget, hb⟩ := (Option.any_eq_true (fun b => b.stage = .configuring ∧ ¬ b.clauses.distinct ∧
    ((run listing).toSql b).toOption.map (·.sql) =
      some ("SELECT COALESCE(title, $1) FROM posts INNER JOIN users ON posts.user_id = users.id "
        ++ "WHERE views > $2 AND EXISTS (SELECT comments.* FROM comments WHERE spam = $3) "
        ++ "ORDER BY title DESC LIMIT 5"))
    ((run listing).get? 0)).mp (by decide +kernel)
  obtain ⟨hstage, hdistinct, hsql⟩ := of_decide_eq_true hb
  have hcount : ((run listing).send 0 .count).2.toOption.map (·.statement.sql) =
      some ("SELECT COUNT(*) AS count FROM posts INNER JOIN users "
        ++ "ON posts.user_id = users.id WHERE views > $1 AND EXISTS (SELECT comments.* FROM comments "
        ++ "WHERE spam = $2)") := by
    decide +kernel
  have hone : ((run listing).send 0 (.fetchOne none)).2.toOption.map (·.statement.sql) =
      some ("SELECT COALESCE(title, $1) FROM posts INNER JOIN users "
        ++ "ON posts.user_id = users.id WHERE views > $2 AND EXISTS (SELECT comments.* FROM comments "
        ++ "WHERE spam = $3) ORDER BY title DESC LIMIT 1") := by
    decide +kernel
  obtain ⟨_, hraw, hrest⟩ := terminals_address_same_rows (run listing) 0 b hget (.inr hstage)
  cases hst : (run listing).toSql b with
  | error e =>
      rw [hst] at hsql
      cases hsql
  | ok st =>
      rw [hst] at hsql hraw
      obtain ⟨parts, _, _, hfirst, _, k, hplain, hcondensed⟩ := hrest st hst
      have hplan : b.plan .count = _ := if_neg hdistinct
      obtain ⟨sent, _, hsent, _, hasks⟩ := hcondensed .count _ (by simpa [Terminal.Condenses] using hdistinct) hplan
      rw [hsent] at hcount
      rw [hfirst none] at hone
      exact ⟨b, st, _, sent, _, _, k, hget, hstage, hst, hraw, hfirst none, hsent, hplain, hasks,
        Option.some.inj hsql, Option.some.inj hone, Option.some.inj hcount⟩

end Shelf

end TableLoom.Query
