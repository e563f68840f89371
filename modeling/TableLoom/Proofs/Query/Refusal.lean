import TableLoom.Proofs.Query.Depth
import TableLoom.Proofs.Query.Lifecycle

/-!
Clauses that are refused. All arguments of a clause are checked before anything is added, so that a
refused clause adds nothing, with two exceptions: fields to select and columns to group by are added one
by one, and those in front of the refused one stay.
-/

namespace TableLoom.Query

/-- The arguments in front of the first one that is refused. -/
def readable (read : Value → Except Fault String) (vs : List Value) : List Value :=
  vs.takeWhile fun v => (read v).isOk

theorem addEach_refused {read : Value → Except Fault String} (acc : List String) {vs : List Value}
    {e : Fault} (refused : (addEach read acc vs).2 = some e) :
    addEach read acc (readable read vs) = ((addEach read acc vs).1, none) := by
  -- What was taken before is generalised: every readable argument adds to it before the next is read.
  induction vs generalizing acc with
  | nil => cases refused
  | cons v rest ih =>
      unfold addEach at refused ⊢
      cases hread : read v with
      | error fault => simp [readable, hread, Except.isOk, Except.toBool]
      | ok text =>
          rw [hread] at refused
          have hrest := ih _ refused
          simpa [readable, hread, Except.isOk, Except.toBool, addEach] using hrest

theorem length_addEach (read : Value → Except Fault String) (acc : List String) (vs : List Value) :
    (addEach read acc vs).1.length = acc.length + (readable read vs).length := by
  induction vs generalizing acc with
  | nil => rfl
  | cons v rest ih =>
      unfold addEach
      cases hread : read v with
      | error fault => simp [readable, hread, Except.isOk, Except.toBool]
      | ok text =>
          rw [ih]
          simp [readable, hread, Except.isOk, Except.toBool]
          omega

namespace Clause

/-- What a clause has taken when it is refused: fields and columns to group by are taken one by one, all
other arguments only together. -/
def kept (b : Binding) : Clause → List Value
  | .select fields => readable (readField b) fields
  | .groupBy columns => readable (readShaped Text.isColumnReference .groupReference) columns
  | _ => []

/-- The clause without the argument that is refused and those behind it. -/
def shortened (b : Binding) : Clause → Clause
  | .select fields => .select (readable (readField b) fields)
  | .groupBy columns =>
    .groupBy (readable (readShaped Text.isColumnReference .groupReference) columns)
  | c => c

end Clause

namespace Clauses

variable {b : Binding} {cs : Clauses}

theorem after_refused {α : Type} {read : Except Fault α} {use : α → Clauses} {e : Fault}
    (refused : (cs.after read use).2 = some e) : (cs.after read use).1 = cs := by
  cases read with
  | error fault => rfl
  | ok a => cases refused

/-- What a refused clause does to the clauses that are there. -/
inductive Refused (b : Binding) (cs : Clauses) (c : Clause) : Prop
  | whole (nothing : c.kept b = []) (same : (cs.add b c).1 = cs)
  | part (some_ : c.kept b ≠ []) (more : (cs.add b c).1 ≠ cs)
      (taken : cs.add b (c.shortened b) = ((cs.add b c).1, none))
      (checked : Builder.precheck (c.shortened b) = .ok ())

theorem refused_select {fields : List Value} {e : Fault}
    (refused : (cs.add b (.select fields)).2 = some e) : Refused b cs (.select fields) := by
  have hpart := addEach_refused [] refused
  have hlength := length_addEach (readField b) [] fields
  by_cases hnone : readable (readField b) fields = []
  · rw [hnone] at hlength
    refine .whole hnone ?_
    simp [add, List.length_eq_zero_iff.mp hlength]
  · refine .part hnone (fun hsame => ?_) (by simp [Clause.shortened, add, hpart]) rfl
    have hselects := congrArg (fun cs : Clauses => cs.selects.length) hsame
    simp only [add, List.length_append, List.length_map, hlength] at hselects
    exact hnone (List.length_eq_zero_iff.mp (by simpa using hselects))

theorem refused_groupBy {columns : List Value} {e : Fault}
    (refused : (cs.add b (.groupBy columns)).2 = some e) : Refused b cs (.groupBy columns) := by
  have hpart := addEach_refused [] refused
  have hlength := length_addEach (readShaped Text.isColumnReference .groupReference) [] columns
  by_cases hnone : readable (readShaped Text.isColumnReference .groupReference) columns = []
  · rw [hnone] at hlength
    refine .whole hnone ?_
    simp [add, List.length_eq_zero_iff.mp hlength]
  · refine .part hnone (fun hsame => ?_) (by simp [Clause.shortened, add, hpart]) rfl
    have hgroups := congrArg (fun cs : Clauses => cs.groupBy.length) hsame
    simp only [add, List.length_append, List.length_map, hlength] at hgroups
    exact hnone (List.length_eq_zero_iff.mp (by simpa using hgroups))

theorem refused_add {c : Clause} {e : Fault} (refused : (cs.add b c).2 = some e) :
    Refused b cs c := by
  cases c with
  | select fields => exact refused_select refused
  | groupBy columns => exact refused_groupBy refused
  | distinct => cases refused
  | existence negated query => cases refused
  | deleted rows => cases refused
  | groupByRaw sql => cases refused
  | orderByRaw sql => cases refused
  | _ => exact .whole rfl (after_refused refused)

end Clauses

namespace Builder

/-- A refused clause leaves the clauses alone, or the builder as the shortened clause does. -/
theorem add_refused {b : Builder} {c : Clause} {e : Fault} (refused : (b.add c).2 = some e) :
    ((b.closed? ≠ none ∨ c.kept b.binding = []) ∧ (b.add c).1.binding = b.binding ∧
      (b.add c).1.clauses = b.clauses ∧
      ((b.add c).1.stage = .released ↔ b.stage = .released)) ∨
    (b.closed? = none ∧ c.kept b.binding ≠ [] ∧ (b.add c).1.clauses ≠ b.clauses ∧
      b.add (c.shortened b.binding) = ((b.add c).1, none)) := by
  cases hrefusal : b.refusal? c with
  | some fault =>
      have hsame : (b.add c).1 = b := by rw [add_eq, hrefusal]
      refine .inl ⟨?_, by rw [hsame], by rw [hsame], by rw [hsame]⟩
      -- What is refused before the stage matters is a page, which is taken only as a whole.
      unfold refusal? at hrefusal
      split at hrefusal
      · next hcheck =>
          cases c with
          | paginate page perPage => exact .inr rfl
          | _ => cases hcheck
      · exact .inl (by simp [hrefusal])
  | none =>
      have hopen : b.closed? = none := by
        unfold refusal? at hrefusal
        split at hrefusal
        · cases hrefusal
        · exact hrefusal
      rw [add_eq, hrefusal] at refused ⊢
      have halive : b.stage ≠ .released := (b.closed_iff.mp hopen).2
      rcases Clauses.refused_add refused with ⟨hnone, hsame⟩ | ⟨hsome, hmore, htaken, hchecked⟩
      · exact .inl ⟨.inr hnone, rfl, hsame, by simp [halive]⟩
      · refine .inr ⟨hopen, hsome, hmore, ?_⟩
        rw [add_eq, refusal?, hchecked]
        simp only [hopen, htaken]

end Builder

namespace Shelf

variable {s : Shelf} {id : Nat} {b : Builder}

theorem act_clause (hget : s.get? id = some b) (c : Clause) :
    s.act id (.clause c) = (Outcome.ofFault (b.add c).2).effect (s.set id (b.add c).1) idle := by
  rw [act, call, outcome, asked_eq hget, step_clause hget]

/-- Only whether it is released matters of a builder's stage for its statement. -/
theorem toSql_congr {b b' : Builder} {s' : Shelf} (binding : b'.binding = b.binding)
    (clauses : b'.clauses = b.clauses) (stage : b'.stage = .released ↔ b.stage = .released)
    (embedded : s'.embedded = s.embedded) : s'.toSql b' = s.toSql b := by
  obtain ⟨binding₀, clauses₀, stage₀⟩ := b
  obtain ⟨_, _, stage'⟩ := b'
  obtain rfl : _ = binding₀ := binding
  obtain rfl : _ = clauses₀ := clauses
  have hstage : (stage' == .released) = (stage₀ == .released) :=
    Bool.eq_iff_iff.mpr (by simpa using stage)
  unfold toSql
  simp only [hstage, embedded]
  rfl

/-- A refused clause leaves all clauses and all statements on the shelf as they were. The exceptions are
fields to select and columns to group by of which some stand in front of the refused one: these are kept,
and the shelf is exactly as if only they had been given. -/
theorem refused_clause_keeps (hget : s.get? id = some b) {c : Clause} {x : Trouble}
    (refused : (s.act id (.clause c)).raised = some x) :
    (b.closed? ≠ none ∨ c.kept b.binding = [] →
      ∀ i d, s.get? i = some d → ∃ d', (s.act id (.clause c)).shelf.get? i = some d' ∧
        d'.binding = d.binding ∧ d'.clauses = d.clauses ∧
        (s.act id (.clause c)).shelf.toSql d' = s.toSql d) ∧
    (b.closed? = none → c.kept b.binding ≠ [] →
      s.act id (.clause (c.shortened b.binding)) = { shelf := (s.act id (.clause c)).shelf } ∧
      ∃ b', (s.act id (.clause c)).shelf.get? id = some b' ∧ b'.clauses ≠ b.clauses) := by
  have hshelf : (s.act id (.clause c)).shelf = s.set id (b.add c).1 := by
    rw [act_clause hget, effect_shelf]
  obtain ⟨e, he⟩ : ∃ e, (b.add c).2 = some e := by
    rw [act_clause hget] at refused
    cases hfault : (b.add c).2 with
    | none =>
        rw [hfault] at refused
        cases refused
    | some e => exact ⟨e, rfl⟩
  rw [hshelf]
  rcases Builder.add_refused he with ⟨hnothing, hbinding, hclauses, hstage⟩ | ⟨hopen, hsome, hmore, htaken⟩
  · refine ⟨fun _ i d hi => ?_, fun hopen hsome => ?_⟩
    · have hembedded := embedded_set hget hbinding hclauses
      by_cases hid : id = i
      · subst hid
        obtain rfl : b = d := Option.some.inj (hget.symm.trans hi)
        exact ⟨_, get_set hget _, hbinding, hclauses, toSql_congr hbinding hclauses hstage hembedded⟩
      · exact ⟨d, (get_set_ne hid _).trans hi, rfl, rfl, toSql_congr rfl rfl Iff.rfl hembedded⟩
    · rcases hnothing with hclosed | hnone
      · exact absurd hopen hclosed
      · exact absurd hnone hsome
  · refine ⟨fun hnothing => ?_, fun _ _ => ⟨?_, _, get_set hget _, hmore⟩⟩
    · rcases hnothing with hclosed | hnone
      · exact absurd hopen hclosed
      · exact absurd hnone hsome
    · rw [act_clause hget, htaken]
      rfl

def postsByAuthor : List Use :=
  [.make { label := "Posts", table := "posts", selectAll := "" } .null,
   .on 0 (.clause (.condition .and (.text "author_id") (.text "eq") (.int 7)))]

def misjoined : Clause :=
  .join (.text "users") (.text "users.id") (.text "1 = 1") (.text "left")

def misnamed : Clause :=
  .select [.text "id", .text "1 = 1", .text "title"]

/-- What the builder of a number would send, if there is any. -/
def sql? (s : Shelf) (id : Nat) : Option String :=
  (s.get? id).bind fun b => (s.toSql b).toOption.map (·.sql)

theorem refused_clause_keeps_authored :
    ∃ b, (after {} postsByAuthor).get? 0 = some b ∧
      (∃ d, ((after {} postsByAuthor).act 0 (.clause misjoined)).shelf.get? 0 = some d ∧
        ((after {} postsByAuthor).act 0 (.clause misjoined)).shelf.toSql d = (after {} postsByAuthor).toSql b) ∧
      (after {} postsByAuthor).act 0 (.clause (misnamed.shortened b.binding)) =
        { shelf := ((after {} postsByAuthor).act 0 (.clause misnamed)).shelf } ∧
      ((after {} postsByAuthor).act 0 (.clause misnamed)).shelf.sql? 0 =
        some "SELECT posts.id FROM posts WHERE author_id = $1" := by
  obtain ⟨b, hget, hb⟩ := (Option.any_eq_true (fun b => b.stage = .configuring ∧
    (misnamed.kept b.binding).isEmpty = false) ((after {} postsByAuthor).get? 0)).mp (by decide +kernel)
  obtain ⟨hstage, hkept⟩ := of_decide_eq_true hb
  have hopen : b.closed? = none := by
    rw [Builder.closed_iff, hstage]
    decide
  have hraised (c : Clause) (h : ((after {} postsByAuthor).act 0 (.clause c)).raised.isSome = true) :
      ∃ x, ((after {} postsByAuthor).act 0 (.clause c)).raised = some x :=
    Option.isSome_iff_exists.mp h
  obtain ⟨x, hjoin⟩ := hraised misjoined (by decide +kernel)
  obtain ⟨y, hselect⟩ := hraised misnamed (by decide +kernel)
  obtain ⟨d, hd, -, -, hsame⟩ := (refused_clause_keeps hget hjoin).1 (.inr rfl) 0 b hget
  have hshorter := (refused_clause_keeps hget hselect).2 hopen (by simpa using hkept)
  exact ⟨b, hget, ⟨d, hd, hsame⟩, hshorter.1, by decide +kernel⟩

/-- It is not so that a refused clause leaves the statement as it was. -/
theorem refused_clause_shows :
    ¬ ∀ (uses : List Use) (id : Nat) (b : Builder) (c : Clause) (x : Trouble),
      (after {} uses).get? id = some b → ((after {} uses).act id (.clause c)).raised = some x →
      ∃ d, ((after {} uses).act id (.clause c)).shelf.get? id = some d ∧
        ((after {} uses).act id (.clause c)).shelf.toSql d = (after {} uses).toSql b := by
  intro hkeeps
  obtain ⟨b, hget⟩ := Option.isSome_iff_exists.mp
    (show ((after {} postsByAuthor).get? 0).isSome = true by decide +kernel)
  obtain ⟨x, hraised⟩ := Option.isSome_iff_exists.mp
    (show ((after {} postsByAuthor).act 0 (.clause misnamed)).raised.isSome = true by decide +kernel)
  obtain ⟨d, hd, hsame⟩ := hkeeps postsByAuthor 0 b misnamed x hget hraised
  have hsql : ((after {} postsByAuthor).act 0 (.clause misnamed)).shelf.sql? 0 =
      (after {} postsByAuthor).sql? 0 := by
    rw [sql?, sql?, hd, hget]
    exact congrArg (·.toOption.map (·.sql)) hsame
  exact absurd hsql (by decide +kernel)

end Shelf

end TableLoom.Query
