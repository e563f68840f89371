import TableLoom.Proofs.Query.Outcome

/-!
The groups of clauses. A clause changes its own group alone, and what it makes of it depends on nothing
else, so clauses of different groups can change places.
-/

namespace TableLoom.Query

inductive Group where
  | projection | distinct | joins | includes | conditions | deletion | grouping | having | ordering
  | paging
  deriving DecidableEq

def Clause.group : Clause → Group
  | .select _ | .selectAggregate .. | .selectRaw .. => .projection
  | .distinct => .distinct
  | .join .. => .joins
  | .include_ .. => .includes
  | .condition .. | .rawCondition .. | .existence .. | .subquery .. => .conditions
  | .deleted _ => .deletion
  | .groupBy _ | .groupByRaw _ => .grouping
  | .having .. | .havingAggregate .. => .having
  | .orderBy .. | .orderByRaw _ => .ordering
  | .limit _ | .offset _ | .paginate .. => .paging

/-- The clauses of one group among others, in order. -/
def inGroup (g : Group) (cs : List Clause) : List Clause :=
  cs.filter (·.group = g)

/-- The same clauses, in the same order inside every group. -/
def Rearranged (cs cs' : List Clause) : Prop :=
  ∀ g, inGroup g cs = inGroup g cs'

theorem Rearranged.mem_iff {cs cs' : List Clause} (h : Rearranged cs cs') (x : Clause) :
    x ∈ cs ↔ x ∈ cs' := by
  have hmem : ∀ ds : List Clause, x ∈ ds ↔ x ∈ inGroup x.group ds := fun ds => by simp [inGroup]
  rw [hmem cs, hmem cs', h]

theorem Rearranged.nil_iff {cs cs' : List Clause} (h : Rearranged cs cs') : cs = [] ↔ cs' = [] := by
  simp only [List.eq_nil_iff_forall_not_mem, h.mem_iff]

namespace Clauses

/-- What is held of one group. -/
def only (g : Group) (c : Clauses) : Clauses :=
  match g with
  | .projection => { selects := c.selects }
  | .distinct => { distinct := c.distinct }
  | .joins => { joins := c.joins }
  | .includes => { includes := c.includes }
  | .conditions => { conditions := c.conditions }
  | .deletion => { deleted := c.deleted }
  | .grouping => { groupBy := c.groupBy }
  | .having => { havings := c.havings }
  | .ordering => { orderBy := c.orderBy }
  | .paging => { limit := c.limit, offset := c.offset }

theorem ext_only {c d : Clauses} (h : ∀ g, c.only g = d.only g) : c = d := by
  have hselects : c.selects = d.selects := (congrArg selects (h .projection) :)
  have hdistinct : c.distinct = d.distinct := (congrArg distinct (h .distinct) :)
  have hjoins : c.joins = d.joins := (congrArg joins (h .joins) :)
  have hincludes : c.includes = d.includes := (congrArg includes (h .includes) :)
  have hconditions : c.conditions = d.conditions := (congrArg conditions (h .conditions) :)
  have hdeleted : c.deleted = d.deleted := (congrArg deleted (h .deletion) :)
  have hgroups : c.groupBy = d.groupBy := (congrArg groupBy (h .grouping) :)
  have hhavings : c.havings = d.havings := (congrArg havings (h .having) :)
  have horder : c.orderBy = d.orderBy := (congrArg orderBy (h .ordering) :)
  have hlimit : c.limit = d.limit := (congrArg limit (h .paging) :)
  have hoffset : c.offset = d.offset := (congrArg offset (h .paging) :)
  cases c
  cases d
  simp_all

/-- A change of one group, made of that group alone. -/
def Within (g : Group) (f : Clauses → Clauses) : Prop :=
  ∀ c h, (f c).only h = if h = g then f (c.only h) else c.only h

/-- Changes one group, and is refused or not whatever is held. -/
def Edits (g : Group) (add : Clauses → Clauses × Option Fault) : Prop :=
  ∃ f fault, Within g f ∧ ∀ c, add c = (f c, fault)

theorem edits_after {g : Group} {α : Type} (read : Except Fault α) {use : Clauses → α → Clauses}
    (h : ∀ a, Within g fun c => use c a) : Edits g fun c => c.after read (use c) := by
  cases read with
  | error e => exact ⟨id, some e, fun c h => by simp, fun c => rfl⟩
  | ok a => exact ⟨fun c => use c a, none, h a, fun c => rfl⟩

theorem edits_add (b : Binding) (x : Clause) : Edits x.group (·.add b x) := by
  cases x with
  | select fields => exact ⟨_, _, fun c h => by cases h <;> rfl, fun c => rfl⟩
  | distinct => exact ⟨_, _, fun c h => by cases h <;> rfl, fun c => rfl⟩
  | selectAggregate aggregate column label => exact edits_after _ fun t c h => by cases h <;> rfl
  | selectRaw sql params => exact edits_after _ fun p c h => by cases h <;> rfl
  | condition link column operator value => exact edits_after _ fun p c h => by cases h <;> rfl
  | rawCondition link sql params => exact edits_after _ fun p c h => by cases h <;> rfl
  | existence negated query => exact ⟨_, _, fun c h => by cases h <;> rfl, fun c => rfl⟩
  | subquery column operator query => exact edits_after _ fun p c h => by cases h <;> rfl
  | deleted rows => exact ⟨_, _, fun c h => by cases h <;> rfl, fun c => rfl⟩
  | join table left right kind => exact edits_after _ fun j c h => by cases h <;> rfl
  | include_ relation options => exact edits_after _ fun r c h => by cases h <;> rfl
  | groupBy columns => exact ⟨_, _, fun c h => by cases h <;> rfl, fun c => rfl⟩
  | groupByRaw sql => exact ⟨_, _, fun c h => by cases h <;> rfl, fun c => rfl⟩
  | having sql params => exact edits_after _ fun p c h => by cases h <;> rfl
  | havingAggregate aggregate column operator value =>
      exact edits_after _ fun p c h => by cases h <;> rfl
  | orderBy column direction => exact edits_after _ fun t c h => by cases h <;> rfl
  | orderByRaw sql => exact ⟨_, _, fun c h => by cases h <;> rfl, fun c => rfl⟩
  | limit n => exact edits_after _ fun n c h => by cases h <;> rfl
  | offset n => exact edits_after _ fun n c h => by cases h <;> rfl
  | paginate page perPage => exact edits_after _ fun n c h => by cases h <;> rfl

theorem add_within (b : Binding) (x : Clause) :
    ∃ f fault, Within x.group f ∧ ∀ c : Clauses, c.add b x = (f c, fault) :=
  edits_add b x

theorem fault_add (b : Binding) (x : Clause) (c d : Clauses) : (c.add b x).2 = (d.add b x).2 := by
  obtain ⟨_, fault, _, hadd⟩ := add_within b x
  rw [hadd, hadd]

theorem only_add_other (b : Binding) {x : Clause} {g : Group} (h : x.group ≠ g) (c : Clauses) :
    (c.add b x).1.only g = c.only g := by
  obtain ⟨f, _, hwithin, hadd⟩ := add_within b x
  rw [hadd, hwithin, if_neg (Ne.symm h)]

theorem only_add_own (b : Binding) {x : Clause} {g : Group} (h : x.group = g) {c d : Clauses}
    (hsame : c.only g = d.only g) : (c.add b x).1.only g = (d.add b x).1.only g := by
  obtain ⟨f, _, hwithin, hadd⟩ := add_within b x
  rw [hadd, hadd, hwithin, hwithin, if_pos h.symm, if_pos h.symm, hsame]

/-- Adds clauses one after the other. -/
def addAll (b : Binding) (c : Clauses) (cs : List Clause) : Clauses :=
  cs.foldl (fun c x => (c.add b x).1) c

theorem only_addAll (b : Binding) (g : Group) (cs : List Clause) {c d : Clauses}
    (h : c.only g = d.only g) : (c.addAll b cs).only g = (d.addAll b (inGroup g cs)).only g := by
  -- The two runs fall apart in the other groups, so they start from any two with the same group.
  induction cs generalizing c d with
  | nil => exact h
  | cons x rest ih =>
      by_cases hx : x.group = g
      · have hkeep : inGroup g (x :: rest) = x :: inGroup g rest :=
          List.filter_cons_of_pos (by simpa using hx)
        rw [hkeep]
        exact ih (only_add_own b hx h)
      · have hdrop : inGroup g (x :: rest) = inGroup g rest :=
          List.filter_cons_of_neg (by simpa using hx)
        rw [hdrop]
        exact ih ((only_add_other b hx c).trans h)

/-- What is held of a group depends on the clauses of that group alone. -/
theorem only_addAll_congr (b : Binding) {g : Group} {cs ds : List Clause}
    (h : inGroup g cs = inGroup g ds) (c : Clauses) :
    (c.addAll b cs).only g = (c.addAll b ds).only g := by
  rw [only_addAll b g cs rfl, only_addAll b g ds rfl, h]

theorem addAll_rearranged (b : Binding) {cs cs' : List Clause} (h : Rearranged cs cs')
    (c : Clauses) : c.addAll b cs = c.addAll b cs' :=
  ext_only fun g => only_addAll_congr b (h g) c

end Clauses

namespace Builder

/-- A clause that an open builder takes. -/
def Takes (b : Binding) (x : Clause) : Prop :=
  precheck x = .ok () ∧ ((({} : Clauses).add b x).2 = none)

theorem add_taken {b : Builder} {x : Clause} (hopen : b.closed? = none) (h : Takes b.binding x) :
    b.add x = ({ b with clauses := (b.clauses.add b.binding x).1, stage := .configuring }, none) := by
  have hrefusal : b.refusal? x = none := by
    rw [refusal?, h.1]
    exact hopen
  rw [add_eq, hrefusal, Clauses.fault_add b.binding x b.clauses {}, h.2]

theorem takes_of_add {b : Builder} {x : Clause} (h : (b.add x).2 = none) :
    b.closed? = none ∧ Takes b.binding x := by
  rw [add_eq] at h
  cases hrefusal : b.refusal? x with
  | some e => rw [hrefusal] at h; cases h
  | none =>
      rw [hrefusal] at h
      unfold refusal? at hrefusal
      cases hcheck : precheck x with
      | error e => rw [hcheck] at hrefusal; cases hrefusal
      | ok _ =>
          rw [hcheck] at hrefusal
          exact ⟨hrefusal, hcheck, (Clauses.fault_add b.binding x {} b.clauses).trans h⟩

/-- The builder after clauses that it takes. -/
def with_ (b : Builder) (cs : List Clause) : Builder :=
  { b with clauses := b.clauses.addAll b.binding cs
           stage := if cs.isEmpty then b.stage else .configuring }

theorem with_rearranged {b : Builder} {cs cs' : List Clause} (h : Rearranged cs cs') :
    b.with_ cs' = b.with_ cs := by
  have hstage : cs'.isEmpty = cs.isEmpty := by
    rw [Bool.eq_iff_iff, List.isEmpty_iff, List.isEmpty_iff, h.nil_iff]
  unfold with_
  rw [Clauses.addAll_rearranged b.binding h, hstage]

end Builder

namespace Shelf

/-- The builder takes every clause that it is given. -/
def TakesAll (s : Shelf) (id : Nat) (cs : List Clause) : Prop :=
  ∀ o ∈ s.outcomes (cs.map (.clause id)), o = .taken

/-- The shelf after clauses given to one builder. -/
def given (s : Shelf) (id : Nat) (cs : List Clause) : Shelf :=
  (cs.map (.clause id)).foldl step s

variable {s : Shelf} {id : Nat} {b : Builder}

theorem outcome_clause (hget : s.get? id = some b) (x : Clause) :
    s.outcome (.clause id x) = .taken ↔ (b.add x).2 = none := by
  rw [outcome, asked_eq hget]
  cases (b.add x).2 with
  | none => simp [Outcome.ofFault]
  | some e => simp [Outcome.ofFault]

theorem takesAll_cons {x : Clause} {rest : List Clause} :
    s.TakesAll id (x :: rest) ↔
      s.outcome (.clause id x) = .taken ∧ (s.step (.clause id x)).TakesAll id rest := by
  unfold TakesAll
  rw [List.map_cons, outcomes]
  exact List.forall_mem_cons

theorem takesAll_iff (hget : s.get? id = some b) (cs : List Clause) :
    s.TakesAll id cs ↔
      (∀ x ∈ cs, Builder.Takes b.binding x) ∧ (cs ≠ [] → b.closed? = none) := by
  induction cs generalizing s b with
  | nil => simp [TakesAll, outcomes]
  | cons x rest ih =>
      rw [takesAll_cons, outcome_clause hget, step_clause hget]
      constructor
      · rintro ⟨htaken, hrest⟩
        obtain ⟨hopen, htakes⟩ := Builder.takes_of_add htaken
        rw [Builder.add_taken hopen htakes] at hrest
        obtain ⟨hall, _⟩ := (ih (get_set hget _)).mp hrest
        exact ⟨List.forall_mem_cons.mpr ⟨htakes, hall⟩, fun _ => hopen⟩
      · rintro ⟨hall, hopen⟩
        obtain ⟨htakes, hrest⟩ := List.forall_mem_cons.mp hall
        have hadd := Builder.add_taken (hopen (List.cons_ne_nil x rest)) htakes
        rw [hadd]
        exact ⟨rfl, (ih (get_set hget _)).mpr ⟨hrest, fun _ => rfl⟩⟩

theorem given_eq (hget : s.get? id = some b) {cs : List Clause} (h : s.TakesAll id cs) :
    s.given id cs = s.set id (b.with_ cs) := by
  induction cs generalizing s b with
  | nil => exact (set_same hget).symm
  | cons x rest ih =>
      obtain ⟨htaken, hrest⟩ := takesAll_cons.mp h
      obtain ⟨hopen, htakes⟩ := Builder.takes_of_add ((outcome_clause hget x).mp htaken)
      rw [step_clause hget, Builder.add_taken hopen htakes] at hrest
      have hgiven := ih (get_set hget _) hrest
      have hstep : s.given id (x :: rest) = (s.step (.clause id x)).given id rest := rfl
      rw [hstep, step_clause hget, Builder.add_taken hopen htakes, hgiven]
      have hset : ∀ b₁ b₂ : Builder, (s.set id b₁).set id b₂ = s.set id b₂ := fun b₁ b₂ =>
        congrArg Shelf.mk (List.set_set b₁)
      rw [hset]
      cases rest <;> rfl

/-- Rearranged clauses are taken as well and leave the same shelf. -/
theorem given_rearranged (hget : s.get? id = some b) {cs cs' : List Clause}
    (h : s.TakesAll id cs) (moved : Rearranged cs cs') :
    s.TakesAll id cs' ∧ s.given id cs' = s.given id cs := by
  obtain ⟨htakes, hopen⟩ := (takesAll_iff hget cs).mp h
  have h' : s.TakesAll id cs' := by
    refine (takesAll_iff hget cs').mpr ⟨fun x hx => htakes x ((moved.mem_iff x).mpr hx), ?_⟩
    exact fun hne => hopen fun hnil => hne (moved.nil_iff.mp hnil)
  exact ⟨h', by rw [given_eq hget h, given_eq hget h', Builder.with_rearranged moved]⟩

end Shelf

end TableLoom.Query
