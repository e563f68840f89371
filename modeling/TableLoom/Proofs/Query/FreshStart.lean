import TableLoom.Proofs.Query.Lifecycle
import TableLoom.Proofs.Query.Nesting

/-!
Reset is a fresh start. What a builder was made with is all that is left of it, so what is done with it
afterwards is seen to happen as with a new builder, on a shelf of its own, that was made in the same way.
-/

namespace TableLoom.Query

/-- What is seen of a builder when something is done with it: what is sent, what is raised and how an
answer is read, and then its stage and its statement. -/
structure Sight where
  sent : List Statement.Bound
  raised : Option Trouble
  reading : Option Reading
  stage : Option Stage
  statement : Option (Except Fault Statement.Bound)

namespace Shelf

def sight (s : Shelf) (id : Nat) (a : Act) : Sight :=
  let e := s.act id a
  { sent := e.sent
    raised := e.raised
    reading := match a with
      | .send t _ => (s.send id t).2.toOption.map (·.reading)
      | _ => none
    stage := (e.shelf.get? id).map (·.stage)
    statement := (e.shelf.get? id).map e.shelf.toSql }

/-- What is seen of a builder when things are done with it one after the other. -/
def watch (s : Shelf) (id : Nat) : List Act → List Sight
  | [] => []
  | a :: rest => s.sight id a :: (s.act id a).shelf.watch id rest

end Shelf

/-- What is done with a builder, and the queries that it is given are among some. -/
def Act.Within (among : Nat → Prop) : Act → Prop
  | .clause c => ∀ j, c.query? = some j → among j
  | _ => True

/-- A clause brings no query but the one that it is given. -/
theorem query_brought {b : Binding} {c : Clause} {x : Item} (h : c.Brings b x) {p : Phrase}
    (hp : x.phrase? = some p) {j : Nat} (hj : .query j ∈ p) : c.query? = some j := by
  have hflat : ∀ {q : Phrase}, q.all Part.isFlat = true → .query j ∉ q := fun flat hmem =>
    Bool.noConfusion (List.all_eq_true.mp flat _ hmem)
  have hraw : ∀ {sql : Value} {params : List Value} {q : Phrase}, readRaw sql params = .ok q →
      .query j ∉ q := by
    intro sql params q hq
    rcases readRaw_ok hq with ⟨rfl, _⟩ | ⟨_, _, reads⟩
    · simp
    · exact hflat reads.flat
  have hembed : ∀ {s t : String} {query : Option Nat},
      .query j ∈ [.text s, embed query, .text t] → query = some j := by
    intro s t query hmem
    cases query with
    | none => simp [embed] at hmem
    | some k => simpa [embed, eq_comm] using hmem
  cases h with
  | select _ _ => cases hp; exact absurd hj (hflat rfl)
  | selectAggregate _ _ => cases hp; exact absurd hj (hflat rfl)
  | selectRaw hread => cases hp; exact absurd hj (hraw hread)
  | @condition link _ _ _ _ hread =>
      obtain ⟨m, _, reads⟩ := readCondition_ok link hread
      cases hp
      exact absurd hj (hflat reads.flat)
  | rawCondition hread => cases hp; exact absurd hj (hraw hread)
  | presence => cases hp; exact hembed hj
  | absence => cases hp; exact hembed hj
  | subquery _ _ => cases hp; exact hembed hj
  | join _ => cases hp
  | include_ hfound =>
      obtain ⟨asked, rfl, _, hoptions⟩ := readInclude_ok hfound
      rcases (readOptions_ok hoptions).1 with hnone | ⟨q, hq, hread⟩
      · cases hnone.symm.trans hp
      · cases hq.symm.trans hp
        exact absurd hj (hraw hread)
  | groupBy _ _ => cases hp
  | groupByRaw => cases hp
  | having hread => cases hp; exact absurd hj (hraw hread)
  | havingAggregate _ _ _ _ => cases hp; exact absurd hj (hflat rfl)
  | orderBy _ => cases hp
  | orderByRaw => cases hp

theorem exists_of_embedded {c : Clauses} {j : Nat} (h : j ∈ c.embedded) :
    ∃ x p, c.Has x ∧ x.phrase? = some p ∧ .query j ∈ p := by
  obtain ⟨p, hp, hquery⟩ := List.mem_flatMap.mp h
  have hj : .query j ∈ p := by
    obtain ⟨part, hpart, heq⟩ := List.mem_filterMap.mp hquery
    cases part with
    | query k => cases heq; exact hpart
    | _ => cases heq
  simp only [List.mem_append, List.mem_map, List.mem_filterMap] at hp
  rcases hp with ((hselect | ⟨q, hq, rfl⟩) | hhaving) | ⟨⟨r, o⟩, hinclude, hfilter⟩
  · exact ⟨.select p, p, hselect, rfl, hj⟩
  · exact ⟨.condition q, q.phrase, hq, rfl, hj⟩
  · exact ⟨.having p, p, hhaving, rfl, hj⟩
  · exact ⟨.include_ r o, p, hinclude, hfilter, hj⟩

theorem Clauses.embedded_add (b : Binding) (c : Clauses) (x : Clause) {j : Nat}
    (h : j ∈ (c.add b x).1.embedded) : j ∈ c.embedded ∨ x.query? = some j := by
  obtain ⟨y, p, hy, hp, hj⟩ := exists_of_embedded h
  rcases c.grows_add b x y hy with hold | hnew
  · exact .inl (mem_embedded hold hp hj)
  · exact .inr (query_brought hnew hp hj)

namespace Shelf

variable {s t : Shelf} {i j : Nat} {b : Builder} {among : Nat → Prop}

/-- The same builder on two shelves, the second of which has one builder more, and the same queries that
it can embed. -/
structure Twins (among : Nat → Prop) (s t : Shelf) (i j : Nat) (b : Builder) : Prop where
  left : s.get? i = some b
  right : t.get? j = some b
  inside : ∀ k ∈ b.clauses.embedded, among k
  apart : ∀ k, among k → k ≠ i ∧ k ≠ j
  enclosed : s.Enclosed among
  same : ∀ k, among k → s.get? k = t.get? k
  length : t.builders.length = s.builders.length + 1

theorem Enclosed.set (h : s.Enclosed among) (hi : ¬ among i) (b : Builder) :
    (s.set i b).Enclosed among := by
  refine ⟨fun k hk => ?_, fun k l hk ⟨d, hget, hl⟩ => ?_⟩
  · have hlength : (s.set i b).builders.length = s.builders.length := List.length_set
    rw [hlength]
    exact h.held k hk
  · have hne : i ≠ k := fun heq => hi (heq ▸ hk)
    exact h.closed k l hk ⟨d, (get_set_ne hne b).symm.trans hget, hl⟩

/-- Which builder is left by a terminal operation does not depend on the shelf. -/
theorem left_by_send (b : Builder) (x : Terminal) :
    ∃ b' : Builder, b'.clauses = b.clauses ∧
      ∀ (s : Shelf) (i : Nat), s.get? i = some b → (s.send i x).1 = s.set i b' := by
  cases hplan : b.plan x with
  | error e =>
      refine ⟨b, rfl, fun s i hget => ?_⟩
      simp only [Shelf.send, hget, hplan, set_same hget]
  | ok plan =>
      cases hbegin : b.begin_ with
      | error e =>
          refine ⟨b, rfl, fun s i hget => ?_⟩
          simp only [Shelf.send, hget, hplan, hbegin, set_same hget]
      | ok b' =>
          refine ⟨b', by rw [Builder.begin_ok hbegin], fun s i hget => ?_⟩
          simp only [Shelf.send, hget, hplan, hbegin]

/-- What comes of an act depends on the builder, on its statement and on what it would send, and on
nothing else of the shelf. -/
theorem act_local (b : Builder) (a : Act) (statement : Except Fault Statement.Bound)
    (sends : Terminal → Except Fault Sent) :
    ∃ b' o db,
      (∀ (s : Shelf) (i : Nat), s.get? i = some b → s.toSql b = statement →
        (∀ x, (s.send i x).2 = sends x) → s.act i a = Outcome.effect (s.set i b') db o) ∧
      ∀ k ∈ b'.clauses.embedded, k ∈ b.clauses.embedded ∨ ∃ c, a = .clause c ∧ c.query? = some k := by
  have hnone : ∀ k ∈ ({} : Clauses).embedded,
      k ∈ b.clauses.embedded ∨ ∃ c, a = .clause c ∧ c.query? = some k := List.forall_mem_nil _
  cases a with
  | clause c =>
      refine ⟨(b.add c).1, .ofFault (b.add c).2, idle, fun s i hget _ _ => ?_, fun k hk => ?_⟩
      · rw [Shelf.act, call, outcome, asked_eq hget, step_clause hget]
      · rcases b.add_cases c with hsame | ⟨_, hclauses⟩
        · exact .inl (hsame ▸ hk)
        · rw [hclauses] at hk
          exact (Clauses.embedded_add b.binding b.clauses c hk).imp_right fun hnew => ⟨c, rfl, hnew⟩
  | render =>
      cases statement with
      | error e =>
          refine ⟨b, .refused e, idle, fun s i hget hsql _ => ?_, fun _ => .inl⟩
          rw [Shelf.act, asked_eq hget, hsql, set_same hget]
      | ok st =>
          refine ⟨b, .taken, idle, fun s i hget hsql _ => ?_, fun _ => .inl⟩
          rw [Shelf.act, asked_eq hget, hsql, set_same hget]
  | send x db =>
      obtain ⟨b', hclauses, hleft⟩ := left_by_send b x
      refine ⟨b', .ofSent (sends x), db, fun s i hget _ hsends => ?_, fun k hk => .inl (hclauses ▸ hk)⟩
      rw [Shelf.act, call, outcome, step, hleft s i hget, hsends]
  | reset =>
      cases hreset : b.reset with
      | error e =>
          refine ⟨b, .refused e, idle, fun s i hget _ _ => ?_, fun _ => .inl⟩
          rw [Shelf.act, call, outcome, asked_eq hget, hreset, step, change_error hget hreset, set_same hget]
          rfl
      | ok b' =>
          refine ⟨b', .taken, idle, fun s i hget _ _ => ?_, ?_⟩
          · rw [Shelf.act, call, outcome, asked_eq hget, hreset, step, change_ok hget hreset]
            rfl
          · rw [Builder.reset_ok hreset]
            exact hnone
  | release =>
      refine ⟨b.release, .taken, idle, fun s i hget _ _ => ?_, hnone⟩
      rw [Shelf.act, call, outcome, asked_eq hget, step_release hget]
  | leave =>
      refine ⟨b.release, .taken, idle, fun s i hget _ _ => ?_, hnone⟩
      rw [Shelf.act, call, outcome, asked_eq hget, step_release hget]

namespace Twins

variable (h : Twins among s t i j b)

include h

theorem set {b' : Builder} (inside : ∀ k ∈ b'.clauses.embedded, among k) :
    Twins among (s.set i b') (t.set j b') i j b' where
  left := get_set h.left b'
  right := get_set h.right b'
  inside := inside
  apart := h.apart
  enclosed := h.enclosed.set (fun hi => (h.apart i hi).1 rfl) b'
  same k hk := by
    obtain ⟨hi, hj⟩ := h.apart k hk
    rw [get_set_ne hi.symm, get_set_ne hj.symm, h.same k hk]
  length := by
    have hs : (s.set i b').builders.length = s.builders.length := List.length_set
    have ht : (t.set j b').builders.length = t.builders.length := List.length_set
    rw [hs, ht, h.length]

theorem embedded_eq {k : Nat} (hk : among k) : s.embedded k = t.embedded k := by
  unfold embedded
  rw [h.length, write_settled h.enclosed hk (Nat.le_refl _)]
  exact write_among h.enclosed h.same _ hk

theorem toSql_eq : s.toSql b = t.toSql b := by
  unfold toSql
  rw [Builder.pieces_congr (fun k hk => h.embedded_eq (h.inside k hk)) {}]

theorem send (x : Terminal) : (s.send i x).2 = (t.send j x).2 := by
  have hwrites := fun k hk => h.embedded_eq (h.inside k hk)
  rw [send_eq h.left, send_eq h.right, Builder.sends, Builder.sends]
  refine congrArg (b.plan x >>= ·) (funext fun plan => congrArg (b.begin_ >>= ·) (funext fun _ => ?_))
  rw [Builder.pieces_congr hwrites plan.shape, Builder.deletion_congr hwrites]

theorem act (a : Act) (within : a.Within among) :
    ∃ b' o db, s.act i a = Outcome.effect (s.set i b') db o ∧
      t.act j a = Outcome.effect (t.set j b') db o ∧ ∀ k ∈ b'.clauses.embedded, among k := by
  obtain ⟨b', o, db, hact, hinside⟩ := act_local b a (s.toSql b) fun x => (s.send i x).2
  have hleft := hact s i h.left rfl fun _ => rfl
  have hright := hact t j h.right h.toSql_eq.symm fun x => (h.send x).symm
  refine ⟨b', o, db, hleft, hright, fun k hk => ?_⟩
  rcases hinside k hk with hold | ⟨c, rfl, hquery⟩
  · exact h.inside k hold
  · exact within k hquery

theorem sight (a : Act) (within : a.Within among) :
    ∃ b', Twins among (s.act i a).shelf (t.act j a).shelf i j b' ∧ s.sight i a = t.sight j a := by
  obtain ⟨b', o, db, hs, ht, hinside⟩ := h.act a within
  have hnext := h.set hinside
  refine ⟨b', ?_, ?_⟩
  · rw [hs, ht, effect_shelf, effect_shelf]
    exact hnext
  · unfold Shelf.sight
    simp only [hs, ht, effect_shelf, hnext.left, hnext.right, Option.map_some, hnext.toSql_eq, h.send]
    cases o <;> rfl

theorem watch {acts : List Act} (within : ∀ a ∈ acts, a.Within among) :
    s.watch i acts = t.watch j acts := by
  induction acts generalizing s t b with
  | nil => rfl
  | cons a rest ih =>
      obtain ⟨hfirst, hrest⟩ := List.forall_mem_cons.mp within
      -- Whatever is done with both, they are twins again.
      obtain ⟨b', hnext, hsight⟩ := h.sight a hfirst
      rw [Shelf.watch, Shelf.watch, hsight, ih hnext hrest]

end Twins

end Shelf

namespace Builder

theorem make_eq {binding : Binding} {table : Value} {b : Builder} (h : make binding table = .ok b) :
    b = { binding := b.binding } := by
  unfold make at h
  split at h
  · split at h
    · cases h
    · cases h
      rfl
  · split at h
    · cases h
    · cases h
      rfl
  · cases h

theorem Turn.binding_eq {b b' : Builder} {a : Act} {sts : List Statement.Bound}
    (h : b.Turn a b' sts) : b'.binding = b.binding := by
  cases h <;> rfl

end Builder

/-- One of the uses makes a builder with the same binding. -/
def Use.Binds (uses : List Use) (b : Builder) : Prop :=
  ∃ binding table fresh, .make binding table ∈ uses ∧ Builder.make binding table = .ok fresh ∧
    fresh.binding = b.binding

namespace Shelf

variable {s : Shelf} {id : Nat} {b : Builder}

theorem binding_of_use {u : Use} (h : b ∈ (s.use u).shelf.builders) :
    (∃ b₀ ∈ s.builders, b₀.binding = b.binding) ∨ Use.Binds [u] b := by
  cases u with
  | make binding table =>
      rw [use, call, effect_shelf, step] at h
      cases hmake : Builder.make binding table with
      | error e =>
          rw [hmake] at h
          exact .inl ⟨b, h, rfl⟩
      | ok made =>
          rw [hmake] at h
          rcases List.mem_append.mp h with hold | hnew
          · exact .inl ⟨b, hold, rfl⟩
          · obtain rfl := List.mem_singleton.mp hnew
            exact .inr ⟨binding, table, b, List.mem_singleton_self _, hmake, rfl⟩
  | on id a =>
      rw [use] at h
      cases hget : s.get? id with
      | none =>
          rw [act_absent hget] at h
          exact .inl ⟨b, h, rfl⟩
      | some b₀ =>
          obtain ⟨b', hshelf, hturn⟩ := act_turn hget a
          rw [hshelf] at h
          rcases List.mem_or_eq_of_mem_set h with hold | rfl
          · exact .inl ⟨b, hold, rfl⟩
          · exact .inl ⟨b₀, List.mem_of_getElem? hget, hturn.binding_eq.symm⟩

theorem binds_of_after {uses : List Use} (h : b ∈ (s.after uses).builders) :
    (∃ b₀ ∈ s.builders, b₀.binding = b.binding) ∨ Use.Binds uses b := by
  induction uses generalizing s with
  | nil => exact .inl ⟨b, h, rfl⟩
  | cons u rest ih =>
      rcases ih h with ⟨b₁, hmem, hbinding⟩ | ⟨binding, table, fresh, hmem, hmade⟩
      · rcases binding_of_use hmem with ⟨b₀, hold, heq⟩ | ⟨binding, table, fresh, hu, hmake, heq⟩
        · exact .inl ⟨b₀, hold, heq.trans hbinding⟩
        · obtain rfl := List.mem_singleton.mp hu
          exact .inr ⟨binding, table, fresh, List.mem_cons_self, hmake, heq.trans hbinding⟩
      · exact .inr ⟨binding, table, fresh, List.mem_cons_of_mem u hmem, hmade⟩

theorem reset_eq (hget : s.get? id = some b) (alive : b.stage ≠ .released) :
    s.act id .reset = { shelf := s.set id { b with clauses := {}, stage := .unbuilt } } := by
  have hreset := b.reset_eq.trans (if_neg alive)
  rw [act, call, outcome, asked_eq hget, hreset, step, change_ok hget hreset]
  rfl

/-- A builder that is reset and a new one of the same make on a shelf of its own. -/
theorem twins_of_reset {among : Nat → Prop} (enclosed : s.Enclosed among) (outside : ¬ among id)
    (hget : s.get? id = some b) {fresh : Builder} (clauses : fresh.clauses = {}) :
    Twins among (s.set id fresh) (s.push fresh).1 id s.builders.length fresh where
  left := get_set hget fresh
  right := by simp [push, get?]
  inside := by
    rw [clauses]
    exact List.forall_mem_nil _
  apart k hk := ⟨fun heq => outside (heq ▸ hk), Nat.ne_of_lt (enclosed.held k hk)⟩
  enclosed := enclosed.set outside fresh
  same k hk := by
    have hne : id ≠ k := fun heq => outside (heq ▸ hk)
    rw [get_set_ne hne]
    exact (List.getElem?_append_left (enclosed.held k hk)).symm
  length := by simp [push, Shelf.set]

/-- Reset leaves nothing of a builder but what it was made with: the builder in its place is a new one.
Beside that, whatever is done with it afterwards, with queries that do not lead back to it, is seen to
happen as with a new builder on the shelf as it was: the same is accepted or refused, sent and raised,
read, and shown by the stage and the statement. -/
theorem reset_starts_afresh (uses : List Use) (id : Nat) (b : Builder)
    (hget : (after {} uses).get? id = some b) (alive : b.stage ≠ .released) :
    ∃ binding table fresh, Use.make binding table ∈ uses ∧
      Builder.make binding table = .ok fresh ∧ fresh.binding = b.binding ∧
      (after {} uses).act id .reset = { shelf := (after {} uses).set id fresh } ∧
      ∀ among, (after {} uses).Enclosed among → ¬ among id →
        ∀ acts : List Act, (∀ a ∈ acts, a.Within among) →
          ((after {} uses).act id .reset).shelf.watch id acts =
            ((after {} uses).use (.make binding table)).shelf.watch (after {} uses).builders.length acts := by
  rcases binds_of_after (List.mem_of_getElem? hget) with ⟨b₀, hmem, _⟩ | ⟨binding, table, fresh, hmade⟩
  · cases hmem
  obtain ⟨hmem, hmake, hbinding⟩ := hmade
  have hfresh : fresh = { b with clauses := {}, stage := .unbuilt } := by
    rw [Builder.make_eq hmake, hbinding]
  have hreset := reset_eq hget alive
  rw [← hfresh] at hreset
  refine ⟨binding, table, fresh, hmem, hmake, hbinding, hreset, fun among enclosed outside acts within => ?_⟩
  have hmade : ((after {} uses).use (.make binding table)).shelf = ((after {} uses).push fresh).1 := by
    rw [use, call, effect_shelf, step, hmake]
  rw [hreset, hmade]
  exact (twins_of_reset enclosed outside hget (Builder.clauses_of_make hmake)).watch within

/-- Clauses of several kinds, and a statement that was sent. -/
def spent : List Use :=
  [.make { label := "Posts", table := "posts", selectAll := "", softDelete := true } .null,
   .make { label := "Comments", table := "comments", selectAll := "" } .null,
   .on 1 (.clause (.condition .and (.text "spam") (.text "eq") (.bool false))),
   .on 0 (.clause (.deleted .show_)), .on 0 (.clause .distinct),
   .on 0 (.clause (.condition .and (.text "views") (.text "gt") (.int 10))),
   .on 0 (.clause (.limit (.int 5))), .on 0 (.send .fetchRaw idle)]

/-- Another query with the same builder. The last clause comes too late. -/
def again : List Act :=
  [.clause (.existence false (some 1)), .render, .send .count unreachable, .clause .distinct]

theorem reset_starts_afresh_spent :
    ∃ b binding table, (after {} spent).get? 0 = some b ∧ b.stage = .executed ∧
      Use.make binding table ∈ spent ∧ (after {} spent).Enclosed (· = 1) ∧ (¬ (0 : Nat) = 1) ∧
      (∀ a ∈ again, a.Within (· = 1)) ∧
      ((after {} spent).act 0 .reset).shelf.watch 0 again =
        ((after {} spent).use (.make binding table)).shelf.watch 2 again ∧
      (((after {} spent).act 0 .reset).shelf.watch 0 again).flatMap (·.sent.map (·.sql)) =
        ["SELECT COUNT(*) AS count FROM posts WHERE posts.deleted_at IS NULL AND EXISTS "
          ++ "(SELECT comments.* FROM comments WHERE spam = $1)"] := by
  obtain ⟨b, hget, hstage⟩ := (Option.any_eq_true (fun b => b.stage = .executed)
    ((after {} spent).get? 0)).mp (by decide +kernel)
  have hexecuted := of_decide_eq_true hstage
  obtain ⟨d, hd, hnone⟩ := (Option.any_eq_true (fun d => d.clauses.embedded = [])
    ((after {} spent).get? 1)).mp (by decide +kernel)
  have hlength : (after {} spent).builders.length = 2 := by decide +kernel
  have henclosed : (after {} spent).Enclosed (· = 1) := by
    refine ⟨fun i hi => by rw [hi, hlength]; decide, fun i j hi ⟨d', hd', hj⟩ => ?_⟩
    obtain rfl : i = 1 := hi
    obtain rfl : d = d' := Option.some.inj (hd.symm.trans hd')
    rw [of_decide_eq_true hnone] at hj
    cases hj
  have hwithin : ∀ a ∈ again, a.Within (· = 1) := by
    simp [again, Act.Within, Clause.query?]
  obtain ⟨binding, table, _, hmem, _, _, _, hsame⟩ :=
    reset_starts_afresh spent 0 b hget (by rw [hexecuted]; decide)
  have hwatch := hsame (· = 1) henclosed (by decide) again hwithin
  rw [hlength] at hwatch
  exact ⟨b, binding, table, hget, hexecuted, hmem, henclosed, by decide, hwithin, hwatch, by decide +kernel⟩

end Shelf

end TableLoom.Query
