import TableLoom.Proofs.Query.Lifecycle
import TableLoom.Proofs.Query.Terminals
import TableLoom.Proofs.Traversal

/-!
Deleting as against fetching. A deletion has the filter of the builder and nothing else, so a row is
deleted although it is not fetched where another clause narrows what is fetched.
-/

namespace TableLoom.Query

/-- The entries that a limit and an offset leave. -/
def page {α : Type} (limit offset : Option Int) (entries : List α) : List α :=
  let rest := entries.drop (offset.getD 0).toNat
  match limit with
  | none => rest
  | some n => rest.take n.toNat

theorem mem_of_page {α : Type} {limit offset : Option Int} {entries : List α} {a : α}
    (h : a ∈ page limit offset entries) : a ∈ entries := by
  unfold page at h
  cases limit with
  | none => exact List.mem_of_mem_drop h
  | some n => exact List.mem_of_mem_drop (List.mem_of_mem_take h)

theorem page_whole {α : Type} {offset : Option Int} (start : ∀ n ∈ offset, n ≤ 0) (entries : List α) :
    page none offset entries = entries := by
  have hoffset : (offset.getD 0).toNat = 0 := by
    cases offset with
    | none => rfl
    | some n => exact Int.toNat_of_nonpos (start n rfl)
  rw [page, hoffset]
  rfl

/-- A page holds all entries of every list only if there is no limit and it starts at the first. -/
theorem page_whole_iff {limit offset : Option Int} :
    (∀ entries : List Nat, ∀ n ∈ entries, n ∈ page limit offset entries) ↔
      limit = none ∧ ∀ n ∈ offset, n ≤ 0 := by
  constructor
  · intro hall
    refine ⟨?_, fun n hn => ?_⟩
    · cases limit with
      | none => rfl
      | some n =>
        -- One entry more than the limit allows.
        have hsub := (List.nodup_range (n := n.toNat + 1)).subperm (hall (List.range (n.toNat + 1)))
        have hlong := hsub.length_le
        rw [page, List.length_take, List.length_range] at hlong
        omega
    · have hfirst := hall [0] 0 (List.mem_singleton_self 0)
      by_contra hpositive
      obtain rfl := Option.mem_def.mp hn
      have hdrop : [0].drop n.toNat = [] := by
        refine List.drop_eq_nil_of_le ?_
        rw [List.length_singleton]
        omega
      cases limit <;> simp [page, hdrop] at hfirst
  · rintro ⟨rfl, hstart⟩ entries n hn
    rwa [page_whole hstart]

/-- How a database carries out a statement over one table. Each entry of an answer is made from some of
the rows, and what the sections do is left open, but for the rows that they may lose: only the filter, the
conditions on groups and the page lose any. -/
structure Engine (Row : Type) where
  passes : List (List Piece) → Row → Bool
  gather : (head grouping : List (List Piece)) → List Row → List (List Row)
  gathers_all : ∀ head grouping rows, (gather head grouping rows).flatten.Perm rows
  keeps : (having : List (List Piece)) → List Row → Bool
  keeps_all : ∀ rows, keeps [] rows = true
  /-- What makes entries distinct and puts them in order. -/
  arrange : (head ordering : List (List Piece)) → List (List Row) → List (List Row)
  arranges_all : ∀ head ordering entries, (arrange head ordering entries).flatten.Perm entries.flatten

namespace Engine

variable {Row : Type} (E : Engine Row)

/-- The rows that the answer to a selection of these sections is made from. -/
def returned (parts : Section → List (List Piece)) (limit offset : Option Int) (table : List Row) :
    List Row :=
  let entries := E.gather (parts .head) (parts .grouping) (table.filter (E.passes (parts .filter)))
  let kept := entries.filter (E.keeps (parts .having))
  (page limit offset (E.arrange (parts .head) (parts .ordering) kept)).flatten

/-- The rows that a deletion with this filter removes. -/
def deleted (filter : List (List Piece)) (table : List Row) : List Row :=
  table.filter (E.passes filter)

/-- An engine that lets every row pass as an entry of its own, but keeps none if there are conditions on
groups. -/
def plain : Engine Nat where
  passes _ _ := true
  gather _ _ rows := rows.map ([·])
  gathers_all _ _ rows := by simp [← List.flatMap_def]
  keeps having _ := having.isEmpty
  keeps_all _ := rfl
  arrange _ _ entries := entries
  arranges_all _ _ entries := .refl _

theorem deleted_plain (filter : List (List Piece)) (table : List Nat) :
    plain.deleted filter table = table := by
  simp [deleted, plain]

theorem returned_plain (parts : Section → List (List Piece)) (limit offset : Option Int)
    (table : List Nat) : plain.returned parts limit offset table =
      if (parts .having).isEmpty then page limit offset table else [] := by
  have hsingles (rows : List Nat) : (page limit offset (rows.map ([·]))).flatten = page limit offset rows := by
    unfold page
    cases limit <;> simp [← List.map_drop, ← List.map_take, ← List.flatMap_def]
  by_cases hnone : (parts .having).isEmpty = true
  · simp [returned, plain, hnone, hsingles]
  · cases limit <;> simp [returned, plain, hnone, page]

/-- What is returned passes the filter. -/
theorem deleted_of_returned {parts : Section → List (List Piece)} {limit offset : Option Int}
    {table : List Row} {row : Row} (h : row ∈ E.returned parts limit offset table) :
    row ∈ E.deleted (parts .filter) table := by
  obtain ⟨entry, hentry, hrow⟩ := List.mem_flatten.mp h
  have harranged := (E.arranges_all ..).mem_iff.mp (List.mem_flatten_of_mem (mem_of_page hentry) hrow)
  obtain ⟨entry, hentry, hrow⟩ := List.mem_flatten.mp harranged
  exact (E.gathers_all ..).mem_iff.mp (List.mem_flatten_of_mem (List.mem_of_mem_filter hentry) hrow)

/-- Without conditions on groups and without a page, whatever passes the filter is returned. -/
theorem returned_of_deleted {parts : Section → List (List Piece)} {offset : Option Int}
    {table : List Row} {row : Row} (ungrouped : parts .having = []) (start : ∀ n ∈ offset, n ≤ 0)
    (h : row ∈ E.deleted (parts .filter) table) : row ∈ E.returned parts none offset table := by
  have hkeeps : E.keeps (parts .having) = fun _ => true := by
    rw [ungrouped]
    exact funext E.keeps_all
  rw [returned, hkeeps, page_whole start, (E.arranges_all ..).mem_iff, List.filter_true,
    (E.gathers_all ..).mem_iff]
  exact h

end Engine

namespace Builder

variable {b : Builder} {write : Nat → Except Fault (List Piece)} {parts : Section → List (List Piece)}

theorem having_eq_nil (h : b.written write .having = .ok (parts .having)) :
    parts .having = [] ↔ b.clauses.havings = [] := by
  rw [written] at h
  split at h
  · next hnone => simpa [← Except.ok.inj h] using hnone
  · next hsome =>
    obtain ⟨havings, -, heq⟩ := map_ok h
    simpa [← heq] using hsome

end Builder

namespace Shelf

variable {s : Shelf} {id : Nat} {b : Builder} {Row : Type}

/-- A row of the table of a builder is among those that its rows are fetched from. -/
def Fetches (s : Shelf) (id : Nat) (E : Engine Row) (table : List Row) (row : Row) : Prop :=
  ∃ b parts, s.get? id = some b ∧ (∀ sec, b.written s.embedded sec = .ok (parts sec)) ∧
    (s.send id .fetchRaw).2 = .ok ⟨statementOf (Section.all.flatMap parts), .rows⟩ ∧
    row ∈ E.returned parts b.clauses.limit b.clauses.offset table

/-- A row of the table of a builder is deleted by it. -/
def Deletes (s : Shelf) (id : Nat) (E : Engine Row) (table : List Row) (row : Row) : Prop :=
  ∃ b filter, s.get? id = some b ∧ b.written s.embedded .filter = .ok filter ∧
    (s.send id .delete).2 =
      .ok ⟨statementOf ([.text s!"DELETE FROM {b.binding.table}"] :: filter), .affected⟩ ∧
    row ∈ E.deleted filter table

/-- An open builder that neither joins nor includes anything sends its filter. -/
theorem send_delete (hget : s.get? id = some b) (ready : b.stage = .unbuilt ∨ b.stage = .configuring)
    (bare : b.clauses.joins = [] ∧ b.clauses.includes = []) :
    s.send id .delete = (s.set id { b with stage := .executed },
      (b.written s.embedded .filter).map fun filter =>
        ⟨statementOf ([.text s!"DELETE FROM {b.binding.table}"] :: filter), .affected⟩) := by
  have hplan : b.plan .delete = .ok { reading := .affected, deletes := true } := by
    simp [Builder.plan, bare]
  have hbegin : b.begin_ = .ok { b with stage := .executed } := by
    unfold Builder.begin_
    rcases ready with h | h <;> rw [h]
  refine Prod.ext ?_ ?_
  · simp only [send, hget, hplan, hbegin]
  · have hsent : (b.deletion s.embedded).map (fun ps => Sent.mk (bind ps) .affected) =
        ((b.deletion s.embedded).map bind).map fun st => ⟨st, .affected⟩ := by
      cases b.deletion s.embedded <;> rfl
    refine (send_ready hget ready hplan).trans (hsent.trans ?_)
    rw [Builder.deletion_bind]
    cases b.written s.embedded .filter <;> rfl

/-- What a builder is asked to delete while it joins or includes anything is refused. -/
theorem send_delete_narrowed (hget : s.get? id = some b)
    (narrowed : b.clauses.joins ≠ [] ∨ b.clauses.includes ≠ []) :
    s.send id .delete = (s, .error .deleteNarrowed) := by
  have hplan : b.plan .delete = .error .deleteNarrowed := by
    have hsome : ¬ (b.clauses.joins.isEmpty && b.clauses.includes.isEmpty) = true := by
      simpa [← not_and_or] using narrowed
    exact if_neg hsome
  simp only [send, hget, hplan]

theorem send_delete_closed (hget : s.get? id = some b)
    (spent : b.stage = .executed ∨ b.stage = .released) : ∃ e, s.send id .delete = (s, .error e) := by
  obtain ⟨e, he⟩ := Builder.begin_closed spent
  cases hplan : b.plan .delete with
  | error e => exact ⟨e, by simp only [send, hget, hplan]⟩
  | ok plan => exact ⟨e, by simp only [send, hget, hplan, he]⟩

/-- Only an open builder that neither joins nor includes anything deletes. -/
theorem of_send_delete (hget : s.get? id = some b) {sent : Sent}
    (accepted : (s.send id .delete).2 = .ok sent) :
    (b.stage = .unbuilt ∨ b.stage = .configuring) ∧ (b.clauses.joins = [] ∧ b.clauses.includes = []) ∧
      ∃ filter, b.written s.embedded .filter = .ok filter := by
  have hready : b.stage = .unbuilt ∨ b.stage = .configuring := by
    cases hstage : b.stage with
    | unbuilt => exact .inl rfl
    | configuring => exact .inr rfl
    | executed =>
      obtain ⟨e, he⟩ := send_delete_closed hget (.inl hstage)
      rw [he] at accepted
      cases accepted
    | released =>
      obtain ⟨e, he⟩ := send_delete_closed hget (.inr hstage)
      rw [he] at accepted
      cases accepted
  have hbare : b.clauses.joins = [] ∧ b.clauses.includes = [] := by
    by_contra hnarrowed
    rw [send_delete_narrowed hget (not_and_or.mp hnarrowed)] at accepted
    cases accepted
  rw [send_delete hget hready hbare] at accepted
  obtain ⟨filter, hfilter, -⟩ := map_ok accepted
  exact ⟨hready, hbare, filter, hfilter⟩

theorem deletes_iff (hget : s.get? id = some b) (ready : b.stage = .unbuilt ∨ b.stage = .configuring)
    (bare : b.clauses.joins = [] ∧ b.clauses.includes = []) {filter : List (List Piece)}
    (hfilter : b.written s.embedded .filter = .ok filter) {E : Engine Row} {table : List Row} {row : Row} :
    s.Deletes id E table row ↔ row ∈ E.deleted filter table := by
  constructor
  · rintro ⟨b', filter', hget', hfilter', -, hrow⟩
    obtain rfl := Option.some.inj (hget.symm.trans hget')
    obtain rfl := Except.ok.inj (hfilter.symm.trans hfilter')
    exact hrow
  · intro hrow
    refine ⟨b, filter, hget, hfilter, ?_, hrow⟩
    rw [send_delete hget ready bare, hfilter]
    rfl

theorem fetches_iff (hget : s.get? id = some b) (ready : b.stage = .unbuilt ∨ b.stage = .configuring)
    {parts : Section → List (List Piece)} (hparts : ∀ sec, b.written s.embedded sec = .ok (parts sec))
    (hsql : s.toSql b = .ok (statementOf (Section.all.flatMap parts)))
    {E : Engine Row} {table : List Row} {row : Row} :
    s.Fetches id E table row ↔ row ∈ E.returned parts b.clauses.limit b.clauses.offset table := by
  constructor
  · rintro ⟨b', parts', hget', hparts', -, hrow⟩
    obtain rfl := Option.some.inj (hget.symm.trans hget')
    obtain rfl : parts = parts' := funext fun sec => Except.ok.inj ((hparts sec).symm.trans (hparts' sec))
    exact hrow
  · intro hrow
    refine ⟨b, parts, hget, hparts, ?_, hrow⟩
    rw [toSql_ready ready] at hsql
    obtain ⟨ps, hps, hbind⟩ := map_ok hsql
    rw [send_ready hget ready rfl]
    change (b.pieces s.embedded {}).map (fun ps => Sent.mk (bind ps) .rows) = _
    rw [hps, ← hbind]
    rfl

theorem toSql_of_fetches (hget : s.get? id = some b)
    (ready : b.stage = .unbuilt ∨ b.stage = .configuring) {E : Engine Row} {table : List Row} {row : Row}
    (h : s.Fetches id E table row) : ∃ st, s.toSql b = .ok st := by
  obtain ⟨_, _, _, _, hsent, _⟩ := h
  rw [send_ready hget ready rfl] at hsent
  obtain ⟨ps, hps, -⟩ := map_ok hsent
  change b.pieces s.embedded {} = .ok ps at hps
  exact ⟨bind ps, by rw [toSql_ready ready, hps]; rfl⟩

/-- What a builder deletes, as against what it fetches: a deletion is refused, with nothing changed, if the
builder joins or includes anything or is not open; otherwise the filter alone is sent, whatever else the
builder holds. Every row that is fetched from is deleted; the rows that are deleted are among them for
every database and every table exactly if the rows can be fetched at all and there is no limit, no offset
and no condition on groups. -/
theorem deletion_follows_filter (s : Shelf) (id : Nat) (b : Builder) (hget : s.get? id = some b) :
    (b.clauses.joins ≠ [] ∨ b.clauses.includes ≠ [] → s.send id .delete = (s, .error .deleteNarrowed)) ∧
    (b.stage = .executed ∨ b.stage = .released → ∃ e, s.send id .delete = (s, .error e)) ∧
    (b.stage = .unbuilt ∨ b.stage = .configuring → b.clauses.joins = [] ∧ b.clauses.includes = [] →
      s.send id .delete = (s.set id { b with stage := .executed },
        (b.written s.embedded .filter).map fun filter =>
          ⟨statementOf ([.text s!"DELETE FROM {b.binding.table}"] :: filter), .affected⟩)) ∧
    ((∃ sent, (s.send id .delete).2 = .ok sent) →
      (∀ (Row : Type) (E : Engine Row) table row, s.Fetches id E table row → s.Deletes id E table row) ∧
      ((∀ (Row : Type) (E : Engine Row) table row, s.Deletes id E table row → s.Fetches id E table row) ↔
        (∃ st, s.toSql b = .ok st) ∧ b.clauses.limit = none ∧ (∀ n ∈ b.clauses.offset, n ≤ 0) ∧
          b.clauses.havings = [])) := by
  refine ⟨send_delete_narrowed hget, send_delete_closed hget, send_delete hget, ?_⟩
  rintro ⟨sent, hsent⟩
  obtain ⟨hready, hbare, filter, hfilter⟩ := of_send_delete hget hsent
  refine ⟨fun Row E table row hfetched => ?_, fun hall => ?_, ?_⟩
  · obtain ⟨b', parts, hget', hparts, -, hrow⟩ := hfetched
    obtain rfl := Option.some.inj (hget.symm.trans hget')
    exact (deletes_iff hget hready hbare (hparts .filter)).mpr (E.deleted_of_returned hrow)
  · -- The plain engine deletes every row of a table, so it fetches from every row.
    have hplain (table : List Nat) : ∀ n ∈ table, s.Fetches id Engine.plain table n := fun n hn =>
      hall Nat Engine.plain table n
        ((deletes_iff hget hready hbare hfilter).mpr (by rwa [Engine.deleted_plain]))
    obtain ⟨st, hst⟩ := toSql_of_fetches hget hready (hplain [0] 0 (List.mem_singleton_self 0))
    obtain ⟨parts, hparts, rfl⟩ := parts_of_toSql hst
    have hpage (table : List Nat) (n : Nat) (hn : n ∈ table) : (parts .having).isEmpty ∧
        n ∈ page b.clauses.limit b.clauses.offset table := by
      have hreturned := (fetches_iff hget hready hparts hst).mp (hplain table n hn)
      rw [Engine.returned_plain] at hreturned
      split at hreturned
      · next hnone => exact ⟨hnone, hreturned⟩
      · cases hreturned
    obtain ⟨hlimit, hoffset⟩ := page_whole_iff.mp fun table n hn => (hpage table n hn).2
    have hungrouped := (hpage [0] 0 (List.mem_singleton_self 0)).1
    exact ⟨⟨_, hst⟩, hlimit, hoffset,
      (Builder.having_eq_nil (hparts .having)).mp (List.isEmpty_iff.mp hungrouped)⟩
  · rintro ⟨⟨st, hst⟩, hlimit, hoffset, hungrouped⟩ Row E table row hdeleted
    obtain ⟨parts, hparts, rfl⟩ := parts_of_toSql hst
    rw [fetches_iff hget hready hparts hst, hlimit]
    exact E.returned_of_deleted ((Builder.having_eq_nil (hparts .having)).mpr hungrouped) hoffset
      ((deletes_iff hget hready hbare (hparts .filter)).mp hdeleted)

/-- A builder of posts with one condition. -/
def spam : List Call :=
  [.make { label := "Posts", table := "posts", selectAll := "" } .null,
   .clause 0 (.condition .and (.text "spam") (.text "eq") (.bool true))]

/-- What is found to be spam can be deleted, and nothing else is. -/
theorem deletion_follows_filter_spam :
    ((run spam).send 0 .delete).2.toOption.map (·.statement.sql) =
        some "DELETE FROM posts WHERE spam = $1" ∧
      ∀ (Row : Type) (E : Engine Row) table row,
        (run spam).Deletes 0 E table row ↔ (run spam).Fetches 0 E table row := by
  obtain ⟨b, hget, hb⟩ := (Option.any_eq_true (fun b => b.clauses.limit = none ∧ b.clauses.offset = none ∧
    b.clauses.havings.isEmpty ∧ ((run spam).toSql b).toOption.isSome) ((run spam).get? 0)).mp
      (by decide +kernel)
  obtain ⟨hlimit, hoffset, hhavings, hsql⟩ := of_decide_eq_true hb
  have hsent : ((run spam).send 0 .delete).2.toOption.map (·.statement.sql) =
      some "DELETE FROM posts WHERE spam = $1" := by
    decide +kernel
  obtain ⟨sent, haccepted, -⟩ := Option.map_eq_some_iff.mp hsent
  obtain ⟨st, hst⟩ := Option.isSome_iff_exists.mp hsql
  obtain ⟨-, -, -, hdeletes⟩ := deletion_follows_filter (run spam) 0 b hget
  obtain ⟨hfetched, hall⟩ := hdeletes ⟨sent, eq_ok_of_toOption haccepted⟩
  have hcovered := hall.mpr
    ⟨⟨st, eq_ok_of_toOption hst⟩, hlimit, by simp [hoffset], List.isEmpty_iff.mp hhavings⟩
  exact ⟨hsent, fun Row E table row => ⟨hcovered Row E table row, hfetched Row E table row⟩⟩

/-- The same, for one post at a time. -/
def spamByOne : List Call :=
  spam ++ [.clause 0 (.limit (.int 1))]

/-- A deletion with a limit is accepted and removes rows past it: of two posts that are spam both are
deleted, while the second is not fetched. -/
theorem deletion_passes_limit :
    ((run spamByOne).send 0 .fetchRaw).2.toOption.map (·.statement.sql) =
        some "SELECT posts.* FROM posts WHERE spam = $1 LIMIT 1" ∧
      ((run spamByOne).send 0 .delete).2.toOption.map (·.statement.sql) =
        some "DELETE FROM posts WHERE spam = $1" ∧
      (run spamByOne).Deletes 0 Engine.plain [0, 1] 1 ∧ ¬ (run spamByOne).Fetches 0 Engine.plain [0, 1] 1 := by
  obtain ⟨b, hget, hb⟩ := (Option.any_eq_true (fun b => b.clauses.limit = some 1 ∧
    b.clauses.offset = none) ((run spamByOne).get? 0)).mp (by decide +kernel)
  obtain ⟨hlimit, hoffset⟩ := of_decide_eq_true hb
  have hsent : ((run spamByOne).send 0 .delete).2.toOption.map (·.statement.sql) =
      some "DELETE FROM posts WHERE spam = $1" := by
    decide +kernel
  refine ⟨by decide +kernel, hsent, ?_, ?_⟩
  · obtain ⟨sent, haccepted, -⟩ := Option.map_eq_some_iff.mp hsent
    obtain ⟨hready, hbare, filter, hfilter⟩ := of_send_delete hget (eq_ok_of_toOption haccepted)
    rw [deletes_iff hget hready hbare hfilter, Engine.deleted_plain]
    decide
  · rintro ⟨b', parts, hget', -, -, hrow⟩
    obtain rfl := Option.some.inj (hget.symm.trans hget')
    rw [Engine.returned_plain, hlimit, hoffset] at hrow
    split at hrow
    · exact absurd hrow (by decide)
    · cases hrow

end Shelf

end TableLoom.Query
