import TableLoom.Database.Executor
import TableLoom.Proofs.Query.Outcome

/-!
The life of a builder. It takes clauses until its statement is sent, is ready again after a reset, and
ends when it is released. The executors that terminal operations are given may fail.
-/

namespace TableLoom.Query

/-- What an executor answers to a statement. -/
abbrev Answers := Statement.Bound → Except Database.RunError (List Row)

/-- What can be done with a builder. -/
inductive Act where
  | clause (c : Clause)
  | render
  | send (t : Terminal) (db : Answers)
  | reset
  | release
  /-- The block that a builder was made for ends. -/
  | leave

/-- Why something failed: the builder refused it, the executor failed, or its answer could not be
read. -/
inductive Trouble where
  | refused (e : Fault)
  | failed (e : Database.RunError)
  | unread (e : Fault)

/-- The shelf afterwards, what was sent to an executor on the way, and what was raised. -/
structure Effect where
  shelf : Shelf
  sent : List Statement.Bound := []
  raised : Option Trouble := none

/-- What comes of a statement that is handed to an executor. -/
def Sent.trouble? (x : Sent) (db : Answers) : Option Trouble :=
  match db x.statement with
  | .error e => some (.failed e)
  | .ok rows =>
    match x.reading.ofRows rows with
    | .error e => some (.unread e)
    | .ok _ => none

def Outcome.effect (s : Shelf) (db : Answers) : Outcome → Effect
  | .taken => { shelf := s }
  | .refused e => { shelf := s, raised := some (.refused e) }
  | .sent x => { shelf := s, sent := [x.statement], raised := x.trouble? db }

/-- An executor that is never asked. -/
def idle : Answers := fun _ => .ok []

namespace Shelf

def call (s : Shelf) (db : Answers) (c : Call) : Effect :=
  (s.outcome c).effect (s.step c) db

def act (s : Shelf) (id : Nat) : Act → Effect
  | .clause c => s.call idle (.clause id c)
  | .render =>
    (s.asked id fun b =>
      match s.toSql b with
      | .ok _ => .taken
      | .error e => .refused e).effect s idle
  | .send t db => s.call db (.send id t)
  | .reset => s.call idle (.reset id)
  | .release | .leave => s.call idle (.release id)

end Shelf

/-- A builder is made, or something is done with one. -/
inductive Use where
  | make (binding : Binding) (table : Value)
  | on (id : Nat) (a : Act)

namespace Shelf

def use (s : Shelf) : Use → Effect
  | .make binding table => s.call idle (.make binding table)
  | .on id a => s.act id a

/-- The effects of uses one after the other. -/
def trace (s : Shelf) : List Use → List (Use × Effect)
  | [] => []
  | u :: rest => (u, s.use u) :: trace (s.use u).shelf rest

theorem uses_trace (s : Shelf) (uses : List Use) : (s.trace uses).map (·.1) = uses := by
  induction uses generalizing s with
  | nil => rfl
  | cons u rest ih => rw [trace, List.map_cons, ih]

/-- The shelf after uses. -/
def after (s : Shelf) (uses : List Use) : Shelf :=
  uses.foldl (fun s u => (s.use u).shelf) s

end Shelf

/-- The statements that a builder sent. -/
def sentBy (id : Nat) (effects : List (Use × Effect)) : List Statement.Bound :=
  effects.flatMap fun (u, e) =>
    match u with
    | .on other _ => if other = id then e.sent else []
    | .make .. => []

theorem sentBy_own (id : Nat) (a : Act) (e : Effect) (rest : List (Use × Effect)) :
    sentBy id ((.on id a, e) :: rest) = e.sent ++ sentBy id rest := by
  simp [sentBy]

/-- A reset of a builder that succeeds. -/
def IsReset (id : Nat) (x : Use × Effect) : Prop :=
  x.1 = .on id .reset ∧ x.2.raised = none

/-- How a builder changes when something is done with it, and what it sends meanwhile. -/
inductive Builder.Turn (b : Builder) : Act → Builder → List Statement.Bound → Prop
  | kept (a : Act) : Turn b a b []
  | configured (c : Clause) (clauses : Clauses) (ready : b.closed? = none) :
      Turn b (.clause c) { b with clauses, stage := .configuring } []
  | sent (t : Terminal) (db : Answers) {sts : List Statement.Bound} (ready : b.closed? = none)
      (one : sts.length ≤ 1) : Turn b (.send t db) { b with stage := .executed } sts
  | cleared (alive : b.stage ≠ .released) :
      Turn b .reset { b with clauses := {}, stage := .unbuilt } []
  | released {a : Act} (h : a = .release ∨ a = .leave) : Turn b a b.release []

namespace Builder

theorem closed_iff (b : Builder) : b.closed? = none ↔ b.stage ≠ .executed ∧ b.stage ≠ .released := by
  unfold closed?
  cases b.stage <;> simp

theorem not_open {b : Builder} (h : b.stage = .executed ∨ b.stage = .released) : b.closed? ≠ none := by
  intro hopen
  obtain ⟨hexecuted, hreleased⟩ := b.closed_iff.mp hopen
  exact h.elim hexecuted hreleased

theorem add_closed {b : Builder} (h : b.stage = .executed ∨ b.stage = .released) (c : Clause) :
    ∃ e, b.add c = (b, some e) := by
  obtain ⟨e, he⟩ := Option.ne_none_iff_exists'.mp (not_open h)
  rw [add_eq, refusal?]
  cases precheck c with
  | error e => exact ⟨e, rfl⟩
  | ok _ =>
      simp only [he]
      exact ⟨e, rfl⟩

theorem closed_of_begin {b b' : Builder} (h : b.begin_ = .ok b') : b.closed? = none := by
  unfold begin_ at h
  unfold closed?
  cases hstage : b.stage <;> simp [hstage] at h ⊢

theorem begin_closed {b : Builder} (h : b.stage = .executed ∨ b.stage = .released) :
    ∃ e, b.begin_ = .error e := by
  unfold begin_
  rcases h with h | h <;> exact ⟨_, by rw [h]⟩

theorem reset_eq (b : Builder) : b.reset =
    if b.stage = .released then .error .resetReleased
    else .ok { b with clauses := {}, stage := .unbuilt } := by
  unfold reset
  cases b.stage <;> rfl

end Builder

namespace Shelf

variable {s : Shelf} {id : Nat} {b : Builder}

theorem effect_shelf (db : Answers) (o : Outcome) : (o.effect s db).shelf = s := by
  cases o <;> rfl

theorem effect_sent (db : Answers) (o : Outcome) : (o.effect s db).sent.length ≤ 1 := by
  cases o with
  | taken => exact Nat.zero_le 1
  | sent x => exact Nat.le_refl 1
  | refused e => exact Nat.zero_le 1

/-- Everything that can be done with a builder is a turn of that builder alone. -/
theorem act_turn (hget : s.get? id = some b) (a : Act) :
    ∃ b', (s.act id a).shelf = s.set id b' ∧ b.Turn a b' (s.act id a).sent := by
  cases a with
  | clause c =>
      have hshelf : (s.act id (.clause c)).shelf = s.set id (b.add c).1 := by
        rw [act, call, effect_shelf, step_clause hget]
      have hsent : (s.act id (.clause c)).sent = [] := by
        rw [act, call, outcome, asked_eq hget]
        cases (b.add c).2 <;> rfl
      refine ⟨(b.add c).1, hshelf, ?_⟩
      rw [hsent, Builder.add_eq]
      cases hrefusal : b.refusal? c with
      | some e => exact .kept _
      | none =>
          refine .configured c _ ?_
          unfold Builder.refusal? at hrefusal
          split at hrefusal
          · cases hrefusal
          · exact hrefusal
  | render =>
      refine ⟨b, ?_, ?_⟩
      · rw [act, effect_shelf, set_same hget]
      · rw [act, asked_eq hget]
        cases s.toSql b <;> exact .kept _
  | send t db =>
      rcases s.send_cases id t with ⟨e, hrefused⟩ | ⟨b₁, plan, hget₁, _, hbegin, hsent⟩
      · refine ⟨b, ?_, ?_⟩
        · rw [act, call, effect_shelf, set_same hget, step, hrefused]
        · rw [act, call, outcome, hrefused]
          exact .kept _
      · obtain rfl : b = b₁ := Option.some.inj (hget.symm.trans hget₁)
        refine ⟨{ b with stage := .executed }, ?_, .sent t db ?_ (effect_sent _ _)⟩
        · rw [act, call, effect_shelf, step, hsent]
        · exact Builder.closed_of_begin hbegin
  | reset =>
      have hshelf : (s.act id .reset).shelf = s.change id Builder.reset := by
        rw [act, call, effect_shelf, step]
      have hsent : (s.act id .reset).sent = [] := by
        rw [act, call, outcome, asked_eq hget]
        cases b.reset <;> rfl
      rw [hshelf, hsent]
      by_cases hreleased : b.stage = .released
      · have hreset := b.reset_eq.trans (if_pos hreleased)
        exact ⟨b, (change_error hget hreset).trans (set_same hget).symm, .kept _⟩
      · have hreset := b.reset_eq.trans (if_neg hreleased)
        exact ⟨_, change_ok hget hreset, .cleared hreleased⟩
  | release =>
      refine ⟨b.release, ?_, ?_⟩
      · rw [act, call, effect_shelf, step_release hget]
      · rw [act, call, outcome, asked_eq hget]
        exact .released (.inl rfl)
  | leave =>
      refine ⟨b.release, ?_, ?_⟩
      · rw [act, call, effect_shelf, step_release hget]
      · rw [act, call, outcome, asked_eq hget]
        exact .released (.inr rfl)

theorem reset_succeeds (hget : s.get? id = some b) :
    (s.act id .reset).raised = none ↔ b.stage ≠ .released := by
  rw [act, call, outcome, asked_eq hget, Builder.reset_eq]
  by_cases h : b.stage = .released
  · simp [h, Outcome.ofBuilder, Outcome.effect]
  · simp [h, Outcome.ofBuilder, Outcome.effect]

theorem clause_refused (hget : s.get? id = some b)
    (spent : b.stage = .executed ∨ b.stage = .released) (c : Clause) :
    ∃ e, s.act id (.clause c) = { shelf := s, raised := some (.refused e) } := by
  obtain ⟨e, he⟩ := Builder.add_closed spent c
  refine ⟨e, ?_⟩
  rw [act, call, outcome, asked_eq hget, step_clause hget, he, set_same hget]
  rfl

theorem terminal_refused (hget : s.get? id = some b)
    (spent : b.stage = .executed ∨ b.stage = .released) (t : Terminal) (db : Answers) :
    ∃ e, s.act id (.send t db) = { shelf := s, raised := some (.refused e) } := by
  rcases s.send_cases id t with ⟨e, hrefused⟩ | ⟨b₁, _, hget₁, _, hbegin, _⟩
  · refine ⟨e, ?_⟩
    rw [act, call, outcome, step, hrefused]
    rfl
  · obtain rfl : b = b₁ := Option.some.inj (hget.symm.trans hget₁)
    obtain ⟨e, he⟩ := Builder.begin_closed spent
    rw [hbegin] at he
    cases he

theorem act_absent (habsent : s.get? id = none) (a : Act) : (s.act id a).shelf = s := by
  have hchange : ∀ f, s.change id f = s := by
    intro f
    unfold change
    rw [habsent]
  cases a with
  | clause c => exact (effect_shelf _ _).trans (hchange fun b => .ok (b.add c).1)
  | render => exact effect_shelf _ _
  | send t db =>
      rw [act, call, effect_shelf, step, send, habsent]
  | reset => exact (effect_shelf _ _).trans (hchange _)
  | release => exact (effect_shelf _ _).trans (hchange fun b => .ok b.release)
  | leave => exact (effect_shelf _ _).trans (hchange fun b => .ok b.release)

/-- What is done with one builder is no turn of another. -/
theorem use_turn (hget : s.get? id = some b) (u : Use) :
    ∃ b', (s.use u).shelf.get? id = some b' ∧
      ((∃ a, u = .on id a ∧ b.Turn a b' (s.use u).sent) ∨
        (b' = b ∧ ∀ rest, sentBy id ((u, s.use u) :: rest) = sentBy id rest)) := by
  cases u with
  | make binding table =>
      refine ⟨b, ?_, .inr ⟨rfl, fun _ => rfl⟩⟩
      rw [use, call, effect_shelf, step]
      cases Builder.make binding table with
      | error e => exact hget
      | ok made =>
          exact (List.getElem?_append_left (List.getElem?_eq_some_iff.mp hget).1).trans hget
  | on other a =>
      by_cases h : other = id
      · subst h
        obtain ⟨b', hshelf, hturn⟩ := act_turn hget a
        refine ⟨b', ?_, .inl ⟨a, rfl, hturn⟩⟩
        rw [use, hshelf]
        exact get_set hget b'
      · refine ⟨b, ?_, .inr ⟨rfl, fun rest => by simp [sentBy, h]⟩⟩
        rw [use]
        cases hother : s.get? other with
        | none => rw [act_absent hother, hget]
        | some b₁ =>
            obtain ⟨b', hshelf, _⟩ := act_turn hother a
            rw [hshelf, get_set_ne h, hget]

/-- Released builders hold no clauses. -/
def Emptied (s : Shelf) : Prop :=
  ∀ b ∈ s.builders, b.stage = .released → b.clauses = {}

theorem Emptied.use (h : s.Emptied) (u : Use) : (s.use u).shelf.Emptied := by
  cases u with
  | make binding table =>
      rw [Shelf.use, call, effect_shelf, step]
      cases hmake : Builder.make binding table with
      | error e => exact h
      | ok made =>
          intro b hb hreleased
          rcases List.mem_append.mp hb with hold | hnew
          · exact h b hold hreleased
          · rw [List.mem_singleton.mp hnew]
            exact Builder.clauses_of_make hmake
  | on id a =>
      rw [Shelf.use]
      cases hget : s.get? id with
      | none => rw [act_absent hget]; exact h
      | some b =>
          obtain ⟨b', hshelf, hturn⟩ := act_turn hget a
          rw [hshelf]
          intro b₁ hb hreleased
          rcases List.mem_or_eq_of_mem_set hb with hold | rfl
          · exact h b₁ hold hreleased
          · generalize (s.act id a).sent = sts at hturn
            cases hturn with
            | kept _ => exact h _ (List.mem_of_getElem? hget) hreleased
            | configured _ _ _ => cases hreleased
            | sent _ _ _ _ => cases hreleased
            | cleared _ => cases hreleased
            | released _ => rfl

theorem Emptied.after (h : s.Emptied) (uses : List Use) : (s.after uses).Emptied := by
  induction uses generalizing s with
  | nil => exact h
  | cons u rest ih => exact ih (h.use u)

theorem released_use (hget : s.get? id = some b) (hreleased : b.stage = .released)
    (hempty : b.clauses = {}) (u : Use) : (s.use u).shelf.get? id = some b := by
  have hclosed := Builder.not_open (.inr hreleased)
  obtain ⟨b', hget', ⟨a, _, hturn⟩ | ⟨rfl, _⟩⟩ := use_turn hget u
  · rw [hget']
    generalize (s.use u).sent = sts at hturn
    cases hturn with
    | kept _ => rfl
    | configured _ _ ready => exact absurd ready hclosed
    | sent _ _ ready _ => exact absurd ready hclosed
    | cleared alive => exact absurd hreleased alive
    | released _ =>
        obtain ⟨binding, clauses, stage⟩ := b
        subst hreleased hempty
        rfl
  · exact hget'

theorem released_after (hget : s.get? id = some b) (hreleased : b.stage = .released)
    (hempty : b.clauses = {}) (uses : List Use) : (s.after uses).get? id = some b := by
  induction uses generalizing s with
  | nil => exact hget
  | cons u rest ih => exact ih (released_use hget hreleased hempty u)

theorem not_cleared (hget : s.get? id = some b) (alive : b.stage ≠ .released) {later : List Use}
    (noReset : ∀ x ∈ s.trace (.on id .reset :: later), ¬ IsReset id x) : False :=
  noReset _ List.mem_cons_self ⟨rfl, (reset_succeeds hget).mpr alive⟩

theorem silent_of_spent (hget : s.get? id = some b)
    (spent : b.stage = .executed ∨ b.stage = .released) {later : List Use}
    (noReset : ∀ x ∈ s.trace later, ¬ IsReset id x) : sentBy id (s.trace later) = [] := by
  induction later generalizing s b with
  | nil => rfl
  | cons u rest ih =>
      have hclosed := Builder.not_open spent
      have hrest : ∀ x ∈ (s.use u).shelf.trace rest, ¬ IsReset id x := fun x hx =>
        noReset x (List.mem_cons_of_mem _ hx)
      obtain ⟨b', hget', ⟨a, rfl, hturn⟩ | ⟨rfl, hsame⟩⟩ := use_turn hget u
      · have hhead : (s.use (.on id a)).sent = [] ∧ (b'.stage = .executed ∨ b'.stage = .released) := by
          generalize (s.use (.on id a)).sent = sts at hturn
          cases hturn with
          | kept _ => exact ⟨rfl, spent⟩
          | configured _ _ ready => exact absurd ready hclosed
          | sent _ _ ready _ => exact absurd ready hclosed
          | cleared alive => exact (not_cleared hget alive noReset).elim
          | released _ => exact ⟨rfl, .inr rfl⟩
        rw [trace, sentBy_own, hhead.1, List.nil_append]
        exact ih hget' hhead.2 hrest
      · rw [trace, hsame]
        exact ih hget' spent hrest

theorem one_sent (hget : s.get? id = some b) {later : List Use}
    (noReset : ∀ x ∈ s.trace later, ¬ IsReset id x) : (sentBy id (s.trace later)).length ≤ 1 := by
  -- Once something is sent, the builder is spent and the rest of the trace is silent.
  induction later generalizing s b with
  | nil => exact Nat.zero_le 1
  | cons u rest ih =>
      have hrest : ∀ x ∈ (s.use u).shelf.trace rest, ¬ IsReset id x := fun x hx =>
        noReset x (List.mem_cons_of_mem _ hx)
      obtain ⟨b', hget', ⟨a, rfl, hturn⟩ | ⟨rfl, hsame⟩⟩ := use_turn hget u
      · have hhead : (s.use (.on id a)).sent = [] ∨
            ((s.use (.on id a)).sent.length ≤ 1 ∧ b'.stage = .executed) := by
          generalize (s.use (.on id a)).sent = sts at hturn
          cases hturn with
          | sent _ _ _ one => exact .inr ⟨one, rfl⟩
          | cleared alive => exact (not_cleared hget alive noReset).elim
          | _ => exact .inl rfl
        rw [trace, sentBy_own]
        rcases hhead with hsilent | ⟨hone, hexecuted⟩
        · rw [hsilent, List.nil_append]
          exact ih hget' hrest
        · rw [silent_of_spent hget' (.inl hexecuted) hrest, List.append_nil]
          exact hone
      · rw [trace, hsame]
        exact ih hget' hrest

/-- Whatever was done before and is done afterwards: a released builder holds no clauses and stays as
it is; a builder whose statement was sent, or that was released, refuses clauses and terminal
operations, and neither sends anything nor changes; exactly the builders that are not released can be
reset; and between two resets at most one statement is sent. -/
theorem builder_lifecycle (uses : List Use) (id : Nat) (b : Builder)
    (hget : (after {} uses).get? id = some b) :
    (b.stage = .released → b.clauses = {} ∧
      ∀ later, (after {} (uses ++ later)).get? id = some b) ∧
    (b.stage = .executed ∨ b.stage = .released →
      (∀ c, ∃ e, (after {} uses).act id (.clause c) =
        { shelf := after {} uses, sent := [], raised := some (.refused e) }) ∧
      ∀ t db, ∃ e, (after {} uses).act id (.send t db) =
        { shelf := after {} uses, sent := [], raised := some (.refused e) }) ∧
    (((after {} uses).act id .reset).raised = none ↔ b.stage ≠ .released) ∧
    ∀ later, (∀ x ∈ (after {} uses).trace later, ¬ IsReset id x) →
      (sentBy id ((after {} uses).trace later)).length ≤ 1 := by
  have hemptied : (after {} uses).Emptied :=
    Emptied.after (s := {}) (fun _ h => absurd h List.not_mem_nil) uses
  refine ⟨fun hreleased => ?_, fun spent => ?_, reset_succeeds hget, fun later => one_sent hget⟩
  · have hempty := hemptied b (List.mem_of_getElem? hget) hreleased
    refine ⟨hempty, fun later => ?_⟩
    rw [after, List.foldl_append]
    exact released_after hget hreleased hempty later
  · exact ⟨clause_refused hget spent, terminal_refused hget spent⟩

/-- An executor that fails. -/
def unreachable : Answers :=
  fun _ => .error (.passed { origin := .connection, message := "connection lost" })

def made : List Use :=
  [.make { label := "Posts", table := "posts", selectAll := "" } .null]

/-- A statement that the executor fails on, and another try. -/
def tried : List Use :=
  [.on 0 (.clause (.condition .and (.text "id") (.text "eq") (.int 1))), .on 0 .render,
   .on 0 (.send .fetchRaw unreachable), .on 0 (.send .count idle)]

theorem builder_lifecycle_tried :
    (∃ b, (after {} made).get? 0 = some b) ∧
    (∀ x ∈ (after {} made).trace tried, ¬ IsReset 0 x) ∧
    (sentBy 0 ((after {} made).trace tried)).length ≤ 1 ∧
    (sentBy 0 ((after {} made).trace tried)).map (·.sql) =
      ["SELECT posts.* FROM posts WHERE id = $1"] ∧
    ∃ b, (after {} (made ++ tried)).get? 0 = some b ∧ b.stage = .executed ∧
      (∃ e, (after {} (made ++ tried)).act 0 (.clause .distinct) =
        { shelf := after {} (made ++ tried), sent := [], raised := some (.refused e) }) ∧
      ((after {} (made ++ tried)).act 0 .reset).raised = none := by
  obtain ⟨b, hb⟩ : ∃ b, (after {} made).get? 0 = some b :=
    ⟨_, List.getElem?_eq_getElem (by decide)⟩
  have hnone : ∀ x ∈ (after {} made).trace tried, ¬ IsReset 0 x := by
    intro x hx hreset
    have huse : x.1 ∈ tried := (uses_trace _ tried) ▸ List.mem_map_of_mem hx
    rw [hreset.1] at huse
    simp [tried] at huse
  obtain ⟨_, _, _, hone⟩ := builder_lifecycle made 0 b hb
  obtain ⟨d, hd⟩ : ∃ d, (after {} (made ++ tried)).get? 0 = some d :=
    ⟨_, List.getElem?_eq_getElem (by decide +kernel)⟩
  have hstage : ((after {} (made ++ tried)).get? 0).map (·.stage) = some .executed := by
    decide +kernel
  rw [hd] at hstage
  have hexecuted : d.stage = .executed := Option.some.inj hstage
  obtain ⟨_, hrefused, hreset, _⟩ := builder_lifecycle (made ++ tried) 0 d hd
  refine ⟨⟨b, hb⟩, hnone, hone tried hnone, by decide +kernel, d, hd, hexecuted, ?_, ?_⟩
  · exact (hrefused (.inl hexecuted)).1 .distinct
  · exact hreset.mpr (by rw [hexecuted]; decide)

end Shelf

end TableLoom.Query
