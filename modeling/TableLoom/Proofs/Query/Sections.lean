import TableLoom.Proofs.Query.Groups

/-!
The sections of a statement stand in a fixed order, and each is written from few groups of clauses.
-/

namespace TableLoom.Query

inductive Section where
  | head | joins | includes | filter | grouping | having | ordering | limit | offset
  deriving DecidableEq

namespace Section

/-- All sections, in the order in which they stand. -/
def all : List Section :=
  [head, joins, includes, filter, grouping, having, ordering, limit, offset]

/-- The groups that a section is written from. The head asks besides whether there are joins. -/
def reads : Section → List Group
  | head => [.projection, .distinct, .includes]
  | joins => [.joins]
  | includes => [.includes]
  | filter => [.conditions, .deletion]
  | grouping => [.grouping]
  | having => [.having]
  | ordering => [.ordering]
  | limit | offset => [.paging]

end Section

namespace Builder

/-- What stands in a section, before slots are numbered, given how embedded queries are written. -/
def written (write : Nat → Except Fault (List Piece)) (b : Builder) :
    Section → Except Fault (List (List Piece))
  | .head => (b.head write {}).map ([·])
  | .joins => .ok (b.clauses.joins.map fun j => [.text j])
  | .includes => b.includes write {}
  | .filter => (b.conditions write).map fun filter => filter.toList.map (Piece.text "WHERE " :: ·)
  | .grouping => texts "GROUP BY " b.clauses.groupBy
  | .having =>
    if b.clauses.havings.isEmpty then .ok []
    else (b.clauses.havings.mapM (expand write)).map fun havings =>
      [.text "HAVING " :: joined [.text " AND "] havings]
  | .ordering => texts "ORDER BY " b.clauses.orderBy
  | .limit => .ok (b.clauses.limit.toList.map fun n => [.text s!"LIMIT {n}"])
  | .offset => .ok (b.clauses.offset.toList.map fun n => [.text s!"OFFSET {n}"])

theorem sections_eq (write : Nat → Except Fault (List Piece)) (b : Builder) :
    b.sections write {} = (Section.all.mapM (b.written write)).map List.flatten := by
  unfold sections grouping
  simp only [Section.all, List.mapM_cons, List.mapM_nil, written, ordering, paging]
  cases b.head write {} with
  | error e => rfl
  | ok head =>
  cases b.includes write {} with
  | error e => rfl
  | ok includes =>
  cases b.conditions write with
  | error e => rfl
  | ok conditions =>
  cases texts "GROUP BY " b.clauses.groupBy with
  | error e => rfl
  | ok groups =>
  by_cases hnone : b.clauses.havings.isEmpty = true
  · cases texts "ORDER BY " b.clauses.orderBy with
    | error e => simp [hnone, Bind.bind, Except.bind, Except.map, pure, Except.pure]
    | ok order => simp [hnone, Bind.bind, Except.bind, Except.map, pure, Except.pure]
  · cases b.clauses.havings.mapM (expand write) with
    | error e => simp [hnone, Bind.bind, Except.bind, Except.map]
    | ok havings =>
    cases texts "ORDER BY " b.clauses.orderBy with
    | error e => simp [hnone, Bind.bind, Except.bind, Except.map, pure, Except.pure]
    | ok order => simp [hnone, Bind.bind, Except.bind, Except.map, pure, Except.pure]

/-- A section is the same in builders that hold the same of every group that it is written from. -/
theorem written_congr (write : Nat → Except Fault (List Piece)) {b d : Builder}
    (binding : b.binding = d.binding) {sec : Section}
    (same : ∀ g ∈ sec.reads, b.clauses.only g = d.clauses.only g)
    (joins : sec = .head → b.clauses.joins.isEmpty = d.clauses.joins.isEmpty) :
    b.written write sec = d.written write sec := by
  cases sec with
  | head =>
      have hselects := congrArg Clauses.selects (same .projection (by decide))
      have hdistinct := congrArg Clauses.distinct (same .distinct (by decide))
      have hincludes := congrArg Clauses.includes (same .includes (by decide))
      simp only [Clauses.only] at hselects hdistinct hincludes
      simp only [written, head, hselects, hdistinct, hincludes, joins rfl, binding]
  | joins =>
      have hjoins := congrArg Clauses.joins (same .joins (by decide))
      simp only [Clauses.only] at hjoins
      simp only [written, hjoins]
  | includes =>
      have hincludes := congrArg Clauses.includes (same .includes (by decide))
      simp only [Clauses.only] at hincludes
      simp only [written, includes, hincludes, binding]
  | filter =>
      have hconditions := congrArg Clauses.conditions (same .conditions (by decide))
      have hdeleted := congrArg Clauses.deleted (same .deletion (by decide))
      simp only [Clauses.only] at hconditions hdeleted
      simp only [written, conditions, guard?, hconditions, hdeleted, binding]
  | grouping =>
      have hgroups := congrArg Clauses.groupBy (same .grouping (by decide))
      simp only [Clauses.only] at hgroups
      simp only [written, hgroups]
  | having =>
      have hhavings := congrArg Clauses.havings (same .having (by decide))
      simp only [Clauses.only] at hhavings
      simp only [written, hhavings]
  | ordering =>
      have horder := congrArg Clauses.orderBy (same .ordering (by decide))
      simp only [Clauses.only] at horder
      simp only [written, horder]
  | limit =>
      have hlimit := congrArg Clauses.limit (same .paging (by decide))
      simp only [Clauses.only] at hlimit
      simp only [written, hlimit]
  | offset =>
      have hoffset := congrArg Clauses.offset (same .paging (by decide))
      simp only [Clauses.only] at hoffset
      simp only [written, hoffset]

end Builder

theorem values_append (ps qs : List Piece) : values (ps ++ qs) = values ps ++ values qs := by
  induction ps with
  | nil => rfl
  | cons p rest ih =>
      cases p with
      | text s => exact ih
      | slot v => exact congrArg (v :: ·) ih

theorem sqlFrom_append (n : Nat) (ps qs : List Piece) :
    sqlFrom n (ps ++ qs) = sqlFrom n ps ++ sqlFrom (n + (values ps).length) qs := by
  induction ps generalizing n with
  | nil => simp [sqlFrom, values]
  | cons p rest ih =>
      cases p with
      | text s => rw [List.cons_append, sqlFrom, sqlFrom, ih, values, String.append_assoc]
      | slot v =>
          rw [List.cons_append, sqlFrom, sqlFrom, ih, values, String.append_assoc,
            List.length_cons, Nat.add_assoc, Nat.add_comm 1]

theorem joined_cons {α : Type} (sep x y : List α) (rest : List (List α)) :
    joined sep (x :: y :: rest) = x ++ sep ++ joined sep (y :: rest) :=
  rfl

/-- The texts of sections when slots are numbered through from `n` on. -/
def numberedFrom (n : Nat) : List (List Piece) → List String
  | [] => []
  | ps :: rest => sqlFrom n ps :: numberedFrom (n + (values ps).length) rest

theorem numberedFrom_append (n : Nat) (pss qss : List (List Piece)) :
    numberedFrom n (pss ++ qss) =
      numberedFrom n pss ++ numberedFrom (n + (pss.flatMap values).length) qss := by
  induction pss generalizing n with
  | nil => rfl
  | cons ps rest ih =>
      rw [List.cons_append, numberedFrom, numberedFrom, ih, List.flatMap_cons, List.length_append,
        Nat.add_assoc]
      rfl

/-- Sections without values read the same wherever they stand. -/
theorem numberedFrom_texts (n : Nat) (ss : List String) :
    numberedFrom n (ss.map fun s => [.text s]) = ss := by
  induction ss with
  | nil => rfl
  | cons s ss ih =>
      rw [List.map_cons, numberedFrom, sqlFrom, sqlFrom, String.append_empty]
      exact congrArg (s :: ·) ih

theorem flatMap_values_texts (ss : List String) :
    (ss.map fun s => [Piece.text s]).flatMap values = [] := by
  induction ss with
  | nil => rfl
  | cons s ss ih => exact ih

theorem sqlFrom_joined (sep : String) (n : Nat) (pss : List (List Piece)) :
    sqlFrom n (joined [.text sep] pss) = Text.join sep (numberedFrom n pss) := by
  induction pss generalizing n with
  | nil => rfl
  | cons ps rest ih =>
      cases rest with
      | nil => simp [joined, numberedFrom, Text.join]
      | cons qs rest =>
          rw [joined_cons, sqlFrom_append, sqlFrom_append, values_append, ih]
          have hsep : sqlFrom (n + (values ps).length) [.text sep] = sep := by
            rw [sqlFrom, sqlFrom, String.append_empty]
          rw [hsep, values, values, List.append_nil, numberedFrom, numberedFrom]
          exact String.intercalate_cons_cons.symm

theorem values_joined (sep : String) (pss : List (List Piece)) :
    values (joined [.text sep] pss) = pss.flatMap values := by
  induction pss with
  | nil => rfl
  | cons ps rest ih =>
      cases rest with
      | nil => simp [joined]
      | cons qs rest =>
          rw [joined_cons, values_append, values_append, ih]
          simp [values]

/-- A statement of sections, which are numbered through and separated by blanks. -/
def statementOf (sections : List (List Piece)) : Statement.Bound :=
  ⟨Text.join " " (numberedFrom 1 sections), sections.flatMap values⟩

theorem bind_joined (sections : List (List Piece)) :
    bind (joined [.text " "] sections) = statementOf sections := by
  rw [bind, sqlFrom_joined, values_joined]
  rfl

namespace Clauses

/-- Joins that are taken are held. -/
theorem joins_addAll (b : Binding) (c : Clauses) {cs : List Clause}
    (taken : ∀ x ∈ cs, Builder.Takes b x) :
    (c.addAll b cs).joins = [] ↔ c.joins = [] ∧ inGroup .joins cs = [] := by
  induction cs generalizing c with
  | nil => simp [addAll, inGroup]
  | cons x rest ih =>
      obtain ⟨htakes, hrest⟩ := List.forall_mem_cons.mp taken
      have hstep : c.addAll b (x :: rest) = (c.add b x).1.addAll b rest := rfl
      rw [hstep, ih _ hrest]
      by_cases hx : x.group = .joins
      · obtain ⟨j, hj⟩ : ∃ j, (c.add b x).1.joins = c.joins ++ [j] := by
          have hfault : (c.add b x).2 = none := (fault_add b x c {}).trans htakes.2
          cases x with
          | join table left right kind =>
              simp only [add] at hfault ⊢
              cases hread : readJoin table left right kind with
              | error e => rw [hread] at hfault; cases hfault
              | ok j => exact ⟨j, rfl⟩
          | _ => cases hx
        simp [hj, inGroup, hx]
      · have hsame := congrArg Clauses.joins (only_add_other b hx c)
        simp only [only] at hsame
        simp [hsame, inGroup, hx]

end Clauses

namespace Shelf

theorem toSql_eq (s : Shelf) {b : Builder} (alive : b.stage ≠ .released) :
    s.toSql b =
      (Section.all.mapM (b.written s.embedded)).map fun parts => statementOf parts.flatten := by
  have hstage : (b.stage == .released) = false := by simpa using alive
  unfold toSql Builder.pieces
  rw [hstage, Builder.sections_eq]
  cases Section.all.mapM (b.written s.embedded) with
  | error e => rfl
  | ok parts => exact congrArg Except.ok (bind_joined parts.flatten)

/-- Clauses that a builder takes can be rearranged: as long as their order inside each group is kept,
the shelf and every statement are the same. The statement is its sections in their order, numbered
through, and what stands in a section depends on its own groups of clauses. -/
theorem clauses_commute (s : Shelf) (id : Nat) (b : Builder) (hget : s.get? id = some b)
    (cs : List Clause) (taken : s.TakesAll id cs) :
    (∀ cs', Rearranged cs cs' → s.TakesAll id cs' ∧ s.given id cs' = s.given id cs ∧
      (s.given id cs').toSql (b.with_ cs') = (s.given id cs).toSql (b.with_ cs)) ∧
    (s.given id cs).get? id = some (b.with_ cs) ∧
    ((b.with_ cs).stage ≠ .released → (s.given id cs).toSql (b.with_ cs) =
      (Section.all.mapM ((b.with_ cs).written (s.given id cs).embedded)).map
        fun parts => statementOf parts.flatten) ∧
    ∀ ds, s.TakesAll id ds → ∀ sec : Section,
      (∀ g ∈ sec.reads, inGroup g cs = inGroup g ds) →
      (sec = .head → (inGroup .joins cs = [] ↔ inGroup .joins ds = [])) →
      ∀ write, (b.with_ cs).written write sec = (b.with_ ds).written write sec := by
  refine ⟨fun cs' moved => ?_, ?_, toSql_eq _, fun ds taken' sec reads joins write => ?_⟩
  · obtain ⟨htaken, hgiven⟩ := given_rearranged hget taken moved
    refine ⟨htaken, hgiven, ?_⟩
    rw [hgiven, Builder.with_rearranged moved]
  · rw [given_eq hget taken]
    exact get_set hget _
  · obtain ⟨htakes, _⟩ := (takesAll_iff hget cs).mp taken
    obtain ⟨htakes', _⟩ := (takesAll_iff hget ds).mp taken'
    have hbinding : (b.with_ cs).binding = (b.with_ ds).binding := rfl
    refine Builder.written_congr write hbinding (fun g hg => ?_) fun hhead => ?_
    · exact Clauses.only_addAll_congr b.binding (reads g hg) b.clauses
    · rw [Bool.eq_iff_iff, List.isEmpty_iff, List.isEmpty_iff]
      refine (Clauses.joins_addAll b.binding b.clauses htakes).trans ?_
      rw [joins hhead]
      exact (Clauses.joins_addAll b.binding b.clauses htakes').symm

def posts : Builder :=
  { binding := { label := "Posts", table := "posts", selectAll := "SELECT posts.* FROM posts" } }

/-- Paging and conditions first, the projection last, and conditions on both sides of a join. -/
def scattered : List Clause :=
  [.limit (.int 5), .condition .and (.text "views") (.text "gt") (.int 10),
   .having (.text "COUNT(*) > ?") [.int 2],
   .join (.text "users") (.text "posts.user_id") (.text "users.id") (.text "inner"),
   .condition .or (.text "pinned") (.text "eq") (.bool true), .groupBy [.text "title"], .distinct,
   .orderBy (.text "title") (.text "desc"), .select [.text "title"]]

/-- The same in the order of the statement. -/
def gathered : List Clause :=
  [.select [.text "title"], .distinct,
   .join (.text "users") (.text "posts.user_id") (.text "users.id") (.text "inner"),
   .condition .and (.text "views") (.text "gt") (.int 10),
   .condition .or (.text "pinned") (.text "eq") (.bool true), .groupBy [.text "title"],
   .having (.text "COUNT(*) > ?") [.int 2], .orderBy (.text "title") (.text "desc"),
   .limit (.int 5)]

theorem clauses_commute_scattered :
    let s : Shelf := ⟨[posts]⟩
    s.get? 0 = some posts ∧ s.TakesAll 0 scattered ∧ Rearranged scattered gathered ∧
    s.TakesAll 0 gathered ∧
    (s.given 0 gathered).toSql (posts.with_ gathered) =
      (s.given 0 scattered).toSql (posts.with_ scattered) ∧
    ((s.given 0 scattered).toSql (posts.with_ scattered)).toOption.map (·.sql) =
      some ("SELECT DISTINCT posts.title FROM posts INNER JOIN users ON posts.user_id = users.id "
        ++ "WHERE views > $1 OR pinned = $2 GROUP BY title HAVING COUNT(*) > $3 ORDER BY title DESC "
        ++ "LIMIT 5") := by
  intro s
  have hget : s.get? 0 = some posts := rfl
  have htaken : s.TakesAll 0 scattered := by
    have hall : (s.outcomes (scattered.map (.clause 0))).all
        (fun | .taken => true | _ => false) = true := by
      decide +kernel
    intro o ho
    have hone := List.all_eq_true.mp hall o ho
    cases o with
    | taken => rfl
    | _ => cases hone
  have hmoved : Rearranged scattered gathered := fun g => by cases g <;> rfl
  obtain ⟨hcommute, _⟩ := clauses_commute s 0 posts hget scattered htaken
  obtain ⟨htaken', _, hsame⟩ := hcommute gathered hmoved
  exact ⟨hget, htaken, hmoved, htaken', hsame, by decide +kernel⟩

end Shelf

end TableLoom.Query
