import TableLoom.Query.Terminal

/-!
Runs: builders are made, take clauses, are sent, reset and released, in any order and as many at a
time as there are. What a builder is bound to and which clauses it holds change in few ways, so what
the clauses keep holds after every run.
-/

namespace TableLoom.Query

theorem bind_ok {α β : Type} {read : Except Fault α} {next : α → Except Fault β} {y : β}
    (h : read >>= next = .ok y) : ∃ x, read = .ok x ∧ next x = .ok y := by
  cases read with
  | error e => cases h
  | ok x => exact ⟨x, rfl, h⟩

theorem map_ok {α β : Type} {read : Except Fault α} {f : α → β} {y : β} (h : read.map f = .ok y) :
    ∃ x, read = .ok x ∧ f x = y := by
  cases read with
  | error e => cases h
  | ok x => exact ⟨x, rfl, Except.ok.inj h⟩

/-- What can be done with the builders of a shelf. -/
inductive Call where
  | make (binding : Binding) (table : Value)
  | clause (id : Nat) (c : Clause)
  | reset (id : Nat)
  | release (id : Nat)
  | send (id : Nat) (t : Terminal)

namespace Shelf

/-- Puts a changed builder back; without one the shelf stays as it is. -/
def change (s : Shelf) (id : Nat) (f : Builder → Except Fault Builder) : Shelf :=
  match s.get? id with
  | none => s
  | some b =>
    match f b with
    | .ok b' => s.set id b'
    | .error _ => s

/-- The shelf after a call, whether the call was refused or not. -/
def step (s : Shelf) : Call → Shelf
  | .make binding table =>
    match Builder.make binding table with
    | .ok b => (s.push b).1
    | .error _ => s
  | .clause id c => s.change id fun b => .ok (b.add c).1
  | .reset id => s.change id Builder.reset
  | .release id => s.change id fun b => .ok b.release
  | .send id t => (s.send id t).1

/-- The shelf after calls on an empty one. -/
def run (calls : List Call) : Shelf :=
  calls.foldl step {}

end Shelf

namespace Builder

/-- What is checked of a clause whatever the stage is: how it pages. -/
def precheck : Clause → Except Fault Unit
  | .paginate page perPage => (Clauses.add.readPage page perPage).map fun _ => ()
  | _ => .ok ()

/-- Why a builder takes no clauses in its stage. -/
def closed? (b : Builder) : Option Fault :=
  match b.stage with
  | .executed => some .modifyExecuted
  | .released => some .modifyReleased
  | _ => none

/-- Why a clause is refused before it is read. -/
def refusal? (b : Builder) (c : Clause) : Option Fault :=
  match precheck c with
  | .error e => some e
  | .ok _ => b.closed?

theorem add_eq (b : Builder) (c : Clause) :
    b.add c = match b.refusal? c with
      | some e => (b, some e)
      | none =>
        ({ b with clauses := (b.clauses.add b.binding c).1, stage := .configuring },
          (b.clauses.add b.binding c).2) := by
  unfold refusal?
  cases hcheck : precheck c with
  | error e =>
      cases c with
      | paginate page perPage =>
          rw [precheck] at hcheck
          simp only [add, hcheck]
      | _ => cases hcheck
  | ok _ =>
      cases c with
      | paginate page perPage =>
          rw [precheck] at hcheck
          simp only [add, hcheck, configure, closed?]
          cases b.stage <;> rfl
      | _ =>
          simp only [add, configure, closed?]
          cases b.stage <;> rfl

/-- A clause that is taken leaves the binding alone; one that is refused may leave all alone. -/
theorem add_cases (b : Builder) (c : Clause) :
    (b.add c).1 = b ∨
      ((b.add c).1.binding = b.binding ∧ (b.add c).1.clauses = (b.clauses.add b.binding c).1) := by
  rw [add_eq]
  split
  · exact .inl rfl
  · exact .inr ⟨rfl, rfl⟩

theorem begin_ok {b b' : Builder} (h : b.begin_ = .ok b') : b' = { b with stage := .executed } := by
  unfold begin_ at h
  split at h
  · cases h
  · cases h
  · exact (Except.ok.inj h).symm

theorem reset_ok {b b' : Builder} (h : b.reset = .ok b') :
    b' = { b with clauses := {}, stage := .unbuilt } := by
  unfold reset at h
  split at h
  · cases h
  · exact (Except.ok.inj h).symm

/-- A statement is sent as it stands, or with text around it. -/
theorem wrap_cases {b : Builder} {t : Terminal} {plan : Plan} (h : b.plan t = .ok plan) :
    plan.wrap = id ∨ ∃ front back, plan.wrap = fun ps => .text front :: ps ++ [.text back] := by
  unfold Builder.plan at h
  split at h
  · cases h; exact .inl rfl
  · cases h; exact .inl rfl
  · cases h; exact .inl rfl
  · split at h
    · cases h; exact .inr ⟨_, _, rfl⟩
    · cases h; exact .inl rfl
  · cases h; exact .inl rfl
  · obtain ⟨_, _, heq⟩ := bind_ok h
    cases heq; exact .inl rfl
  · obtain ⟨_, _, h₁⟩ := bind_ok h
    obtain ⟨_, _, heq⟩ := bind_ok h₁
    cases heq; exact .inl rfl
  · split at h
    · cases h; exact .inl rfl
    · cases h

theorem clauses_of_make {binding : Binding} {table : Value} {b : Builder}
    (h : make binding table = .ok b) : b.clauses = {} := by
  unfold make at h
  split at h
  · split at h
    · cases h
    · cases h
      rfl
  · split at h
    · cases h
    · cases h
      rfl
  · cases h

end Builder

namespace Shelf

/-- A builder that is sent is refused as it stands, or it has taken its last clause and its statement
is written. -/
theorem send_cases (s : Shelf) (id : Nat) (t : Terminal) :
    (∃ e, s.send id t = (s, .error e)) ∨
      ∃ b plan, s.get? id = some b ∧ b.plan t = .ok plan ∧
        b.begin_ = .ok { b with stage := .executed } ∧
        let b' : Builder := { b with stage := .executed }
        let s' := s.set id b'
        s.send id t = (s',
          (if plan.deletes then b'.deletion s'.embedded else b'.pieces s'.embedded plan.shape).map
            fun ps => ⟨bind (plan.wrap ps), plan.reading⟩) := by
  unfold send
  cases hget : s.get? id with
  | none => exact .inl ⟨_, rfl⟩
  | some b =>
      simp only
      cases hplan : b.plan t with
      | error e => exact .inl ⟨e, rfl⟩
      | ok plan =>
          simp only
          cases hbegin : b.begin_ with
          | error e => exact .inl ⟨e, rfl⟩
          | ok b' =>
              have hb' := Builder.begin_ok hbegin
              subst hb'
              exact .inr ⟨b, plan, rfl, hplan, hbegin, rfl⟩

/-- Every builder of the shelf has a property of its binding and its clauses. -/
def Every (P : Binding → Clauses → Prop) (s : Shelf) : Prop :=
  ∀ b ∈ s.builders, P b.binding b.clauses

theorem Every.get {P : Binding → Clauses → Prop} {s : Shelf} (h : s.Every P) {id : Nat}
    {b : Builder} (hget : s.get? id = some b) : P b.binding b.clauses :=
  h b (List.mem_of_getElem? hget)

theorem Every.set {P : Binding → Clauses → Prop} {s : Shelf} (h : s.Every P) (id : Nat)
    {b : Builder} (hb : P b.binding b.clauses) : (s.set id b).Every P := by
  intro b' hb'
  rcases List.mem_or_eq_of_mem_set hb' with hold | rfl
  · exact h b' hold
  · exact hb

theorem Every.push {P : Binding → Clauses → Prop} {s : Shelf} (h : s.Every P) {b : Builder}
    (hb : P b.binding b.clauses) : (s.push b).1.Every P := by
  intro b' hb'
  rcases List.mem_append.mp hb' with hold | hnew
  · exact h b' hold
  · rw [List.mem_singleton.mp hnew]
    exact hb

theorem Every.change {P : Binding → Clauses → Prop} {s : Shelf} (h : s.Every P) (id : Nat)
    {f : Builder → Except Fault Builder}
    (keeps : ∀ b b', P b.binding b.clauses → f b = .ok b' → P b'.binding b'.clauses) :
    (s.change id f).Every P := by
  unfold Shelf.change
  cases hget : s.get? id with
  | none => exact h
  | some b =>
      cases hf : f b with
      | error e => simpa [hf] using h
      | ok b' => simpa [hf] using h.set id (keeps b b' (h.get hget) hf)

/-- What new builders have, what every clause among the calls keeps, and what no clauses at all have
as well as some. -/
structure Kept (calls : List Call) (P : Binding → Clauses → Prop) : Prop where
  made : ∀ binding table b, .make binding table ∈ calls → Builder.make binding table = .ok b →
    P b.binding {}
  emptied : ∀ binding clauses, P binding clauses → P binding {}
  added : ∀ id c binding clauses, .clause id c ∈ calls → P binding clauses →
    P binding (clauses.add binding c).1

theorem Kept.step {calls : List Call} {P : Binding → Clauses → Prop} (kept : Kept calls P)
    {s : Shelf} (h : s.Every P) {call : Call} (mem : call ∈ calls) : (s.step call).Every P := by
  cases call with
  | make binding table =>
      unfold Shelf.step
      cases hmake : Builder.make binding table with
      | error e => simpa [hmake] using h
      | ok b =>
          have hb : P b.binding b.clauses := by
            rw [Builder.clauses_of_make hmake]
            exact kept.made binding table b mem hmake
          simpa [hmake] using h.push hb
  | clause id c =>
      refine h.change id fun b b' hb heq => ?_
      obtain rfl := Except.ok.inj heq
      rcases b.add_cases c with hsame | ⟨hbinding, hclauses⟩
      · rw [hsame]
        exact hb
      · rw [hbinding, hclauses]
        exact kept.added id c b.binding b.clauses mem hb
  | reset id =>
      refine h.change id fun b b' hb heq => ?_
      rw [Builder.reset_ok heq]
      exact kept.emptied _ _ hb
  | release id =>
      refine h.change id fun b b' hb heq => ?_
      obtain rfl := Except.ok.inj heq
      exact kept.emptied _ _ hb
  | send id t =>
      change (s.send id t).1.Every P
      rcases s.send_cases id t with ⟨e, hrefused⟩ | ⟨b, plan, hget, _, _, hsent⟩
      · rw [hrefused]
        exact h
      · have hb : P b.binding b.clauses := h.get hget
        rw [hsent]
        exact h.set id hb

/-- What the calls keep holds of every builder after them. -/
theorem Kept.run {calls : List Call} {P : Binding → Clauses → Prop} (kept : Kept calls P) :
    (Shelf.run calls).Every P := by
  have hfold : ∀ (s : Shelf) (later : List Call), s.Every P → (∀ call ∈ later, call ∈ calls) →
      (later.foldl Shelf.step s).Every P := by
    intro s later
    induction later generalizing s with
    | nil => exact fun h _ => h
    | cons call rest ih =>
        intro h hmem
        refine ih (s.step call) (kept.step h (hmem call List.mem_cons_self)) ?_
        exact fun call' hcall' => hmem call' (List.mem_cons_of_mem call hcall')
  exact hfold {} calls (by simp [Every]) fun _ h => h

end Shelf

end TableLoom.Query
