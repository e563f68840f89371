import TableLoom.Proofs.Query.Alike
import TableLoom.Proofs.Query.Collector
import TableLoom.Proofs.Query.Groups
import TableLoom.Proofs.Query.Nesting

/-!
Queries compose: embedded, a query says what it says on its own, with its placeholders moved on by as
many values as stand before it, and it says what it holds at that moment.
-/

namespace TableLoom.Query

/-- A text that reads like a statement whose placeholders are moved on by `k`. -/
def Renumbered (k : Nat) (st : Statement.Bound) (text : String) : Prop :=
  ∃ ps, st = bind ps ∧ text = sqlFrom (k + 1) ps

namespace Clause

/-- The word behind which the query of a clause stands. -/
def Opens (b : Binding) (word : String) : Clause → Prop
  | .existence negated _ => word = if negated then "NOT EXISTS (" else "EXISTS ("
  | .subquery column operator _ =>
    ∃ op name, readOperator operator = .ok op ∧ readColumn b column = .ok name ∧
      word = s!"{name} {op.sql} ("
  | _ => False

end Clause

namespace Clauses

theorem condition_kept (b : Binding) (x : Clause) {c : Clauses} {q : Condition}
    (h : q ∈ c.conditions) : q ∈ (c.add b x).1.conditions := by
  have hafter : ∀ read : Except Fault Phrase, ∀ link, q ∈
      (c.after read fun p => { c with conditions := c.conditions ++ [⟨link, p⟩] }).1.conditions := by
    rintro (e | p) link
    · exact h
    · exact List.mem_append_left _ h
  by_cases hgroup : x.group = .conditions
  · cases x with
    | condition link column operator value => exact hafter _ link
    | rawCondition link sql params => exact hafter _ link
    | existence negated query => exact List.mem_append_left _ h
    | subquery column operator query => exact hafter _ .and
    | _ => cases hgroup
  · have hsame := congrArg Clauses.conditions (only_add_other b hgroup c)
    exact hsame ▸ h

theorem after_taken {c : Clauses} {α : Type} {read : Except Fault α} {use : α → Clauses}
    (h : (c.after read use).2 = none) : ∃ a, read = .ok a ∧ (c.after read use).1 = use a := by
  cases read with
  | error e => cases h
  | ok a => exact ⟨a, rfl, rfl⟩

/-- A clause that is taken puts its query behind its word. -/
theorem condition_added {b : Binding} {x : Clause} {j : Nat} (query : x.query? = some j) (c : Clauses)
    (taken : (c.add b x).2 = none) :
    ∃ word, x.Opens b word ∧
      ⟨.and, [.text word, .query j, .text ")"]⟩ ∈ (c.add b x).1.conditions := by
  cases x with
  | existence negated q =>
      obtain rfl : q = some j := query
      exact ⟨_, rfl, List.mem_append_right _ List.mem_cons_self⟩
  | subquery column operator q =>
      obtain rfl : q = some j := query
      obtain ⟨p, hread, hadded⟩ := after_taken taken
      obtain ⟨op, hop, h₁⟩ := bind_ok hread
      split at h₁
      · cases h₁
      · obtain ⟨name, hname, heq⟩ := bind_ok h₁
        obtain rfl := Except.ok.inj heq
        refine ⟨_, ⟨op, name, hop, hname, rfl⟩, ?_⟩
        rw [add, hadded]
        exact List.mem_append_right _ List.mem_cons_self
  | _ => cases query

end Clauses

namespace Shelf

variable {s : Shelf} {i j : Nat} {b : Builder} {word : String}

/-- Renders a builder into a collector. -/
def rendered (s : Shelf) (id : Nat) : Writing String :=
  s.render (s.builders.length + 1) id

theorem get_change (hget : s.get? i = some b) (id : Nat) (f : Builder → Except Fault Builder) :
    (s.change id f).get? i = some b ∨
      ∃ b', id = i ∧ f b = .ok b' ∧ (s.change id f).get? i = some b' := by
  by_cases hid : id = i
  · subst hid
    cases hf : f b with
    | error e => exact .inl (by rw [change_error hget hf, hget])
    | ok b' => exact .inr ⟨b', rfl, rfl, by rw [change_ok hget hf, get_set hget]⟩
  · refine .inl ?_
    unfold change
    cases s.get? id with
    | none => exact hget
    | some d =>
        cases hf : f d with
        | error e => simpa [hf] using hget
        | ok d' => simpa [hf, get_set_ne hid] using hget

theorem get_made (hget : s.get? i = some b) (binding : Binding) (table : Value) :
    (s.step (.make binding table)).get? i = some b := by
  simp only [step]
  cases Builder.make binding table with
  | error e => exact hget
  | ok made => exact (List.getElem?_append_left (List.getElem?_eq_some_iff.mp hget).1).trans hget

/-- A query stays among the conditions until the builder around it is reset or released. -/
theorem links_step (h : s.Links i word j) {call : Call} (kept : call ≠ .reset i ∧ call ≠ .release i) :
    (s.step call).Links i word j := by
  obtain ⟨b, link, hget, holds⟩ := h
  cases call with
  | make binding table => exact ⟨b, link, get_made hget binding table, holds⟩
  | clause id c =>
      rcases get_change hget id (fun b => .ok (b.add c).1) with hsame | ⟨b', _, heq, hget'⟩
      · exact ⟨b, link, hsame, holds⟩
      · obtain rfl := Except.ok.inj heq
        refine ⟨_, link, hget', ?_⟩
        rcases b.add_cases c with hsame | ⟨_, hclauses⟩
        · rw [hsame]
          exact holds
        · rw [hclauses]
          exact Clauses.condition_kept b.binding c holds
  | reset id =>
      rcases get_change hget id Builder.reset with hsame | ⟨_, rfl, _⟩
      · exact ⟨b, link, hsame, holds⟩
      · exact absurd rfl kept.1
  | release id =>
      rcases get_change hget id (fun b => .ok b.release) with hsame | ⟨_, rfl, _⟩
      · exact ⟨b, link, hsame, holds⟩
      · exact absurd rfl kept.2
  | send id t =>
      change (s.send id t).1.Links i word j
      rcases s.send_cases id t with ⟨e, hrefused⟩ | ⟨d, plan, hgetd, _, _, hsent⟩
      · rw [hrefused]
        exact ⟨b, link, hget, holds⟩
      · rw [hsent]
        by_cases hid : id = i
        · subst hid
          obtain rfl : b = d := Option.some.inj (hget.symm.trans hgetd)
          exact ⟨_, link, get_set hget _, holds⟩
        · exact ⟨b, link, (get_set_ne hid _).trans hget, holds⟩

theorem links_run (h : s.Links i word j) {later : List Call}
    (kept : ∀ call ∈ later, call ≠ .reset i ∧ call ≠ .release i) :
    (later.foldl step s).Links i word j := by
  induction later generalizing s with
  | nil => exact h
  | cons call rest ih =>
      obtain ⟨hcall, hrest⟩ := List.forall_mem_cons.mp kept
      exact ih (links_step h hcall) hrest

theorem links_clause (hget : s.get? i = some b) {c : Clause} (query : c.query? = some j)
    (taken : (b.add c).2 = none) :
    ∃ word, c.Opens b.binding word ∧ (s.step (.clause i c)).Links i word j := by
  obtain ⟨hopen, htakes⟩ := Builder.takes_of_add taken
  have hadd := Builder.add_taken hopen htakes
  obtain ⟨word, hword, hmem⟩ := Clauses.condition_added (b := b.binding) query b.clauses
    ((Clauses.fault_add b.binding c b.clauses {}).trans htakes.2)
  have hget' : (s.step (.clause i c)).get? i = some (b.add c).1 := by
    rw [step_clause hget]
    exact get_set hget _
  rw [hadd] at hget'
  exact ⟨word, hword, _, .and, hget', hmem⟩

theorem toSql_write {d : Builder} (hget : s.get? j = some d) (alive : d.stage ≠ .released) :
    s.toSql d = (s.write (s.builders.length + 1) j).map bind := by
  have hstage : (d.stage == .released) = false := by simpa using alive
  unfold toSql
  rw [hstage, write, hget]
  rfl

/-- Rendered into a collector, a query adds its own values and reads like its own statement, with the
placeholders moved on by what the collector held. A query that was put among the conditions of another
one stays there until that one is reset or released, and whatever is said by a builder that holds it at
any depth shows the statement that the query has at that moment. -/
theorem queries_compose (s : Shelf) (j : Nat) :
    (∀ d, s.get? j = some d → d.stage ≠ .released →
      (∀ held, Agree (fun x st => x.2 = held ++ st.params ∧ Renumbered held.length st x.1)
        (s.rendered j held) (s.toSql d)) ∧
      (s.Acyclic → (s.Every fun _ c => ∀ x, c.Has x → x.Writable s.builders.length) →
        ∃ st, s.toSql d = .ok st) ∧
      ∀ i word st, s.Nests i word j → s.Gives i st →
        ∃ inner, s.toSql d = .ok inner ∧ Shows st word inner) ∧
    ∀ i b c, s.get? i = some b → c.query? = some j → (b.add c).2 = none →
      ∃ word, c.Opens b.binding word ∧
        ∀ later : List Call, (∀ call ∈ later, call ≠ .reset i ∧ call ≠ .release i) →
          (later.foldl step (s.step (.clause i c))).Links i word j := by
  refine ⟨fun d hget alive => ⟨fun held => ?_, fun acyclic writable => ?_, ?_⟩, ?_⟩
  · rw [rendered, follows_render s _ j held, toSql_write hget alive]
    cases s.write (s.builders.length + 1) j with
    | error e => exact .error e
    | ok ps => exact .ok ⟨rfl, ps, rfl, rfl⟩
  · obtain ⟨ps, hps⟩ := Builder.pieces_total (served_of_acyclic acyclic writable hget) {}
    refine ⟨bind ps, ?_⟩
    rw [toSql_write hget alive, write, hget]
    exact congrArg (Except.map bind) hps
  · intro i word st nested given
    obtain ⟨ps, hps, hshows⟩ := gives_nests nested given
    exact ⟨bind ps, by rw [toSql_write hget alive, hps]; rfl, hshows⟩
  · intro i b c hget query taken
    obtain ⟨word, hword, hlinks⟩ := links_clause hget query taken
    exact ⟨word, hword, fun later kept => links_run hlinks kept⟩

/-- Three builders of their own. -/
def apart : List Call :=
  [.make { label := "Posts", table := "posts", selectAll := "" } .null,
   .make { label := "Comments", table := "comments", selectAll := "" } .null,
   .make { label := "Users", table := "users", selectAll := "" } .null,
   .clause 0 (.condition .and (.text "views") (.text "gt") (.int 10)),
   .clause 1 (.condition .and (.text "spam") (.text "eq") (.bool false))]

def commented : Clause :=
  .existence false (some 1)

def authored : Clause :=
  .subquery (.text "author_id") (.text "in") (some 2)

/-- A condition that comes after the query was embedded, at the innermost builder. -/
def afterwards : List Call :=
  [.clause 2 (.condition .and (.text "active") (.text "eq") (.bool true))]

def discussed : List Call :=
  apart ++ .clause 0 commented :: .clause 1 authored :: afterwards

theorem queries_compose_nested :
    ∃ b d st inner word, (run discussed).get? 0 = some b ∧ (run discussed).get? 2 = some d ∧
      d.stage ≠ .released ∧ (run discussed).toSql b = .ok st ∧ (run discussed).toSql d = .ok inner ∧
      (run discussed).Nests 0 word 2 ∧ Shows st word inner ∧
      inner.sql = "SELECT users.* FROM users WHERE active = $1" ∧
      st.sql = "SELECT posts.* FROM posts WHERE views > $1 AND EXISTS (SELECT comments.* FROM comments "
        ++ "WHERE spam = $2 AND author_id IN (SELECT users.* FROM users WHERE active = $3))" ∧
      ∃ text, (run discussed).rendered 2 [.null, .null] = .ok (text, [.null, .null] ++ inner.params) ∧
        Renumbered 2 inner text := by
  obtain ⟨b, hb, hsql⟩ := (Option.any_eq_true (fun b =>
    ((run discussed).toSql b).toOption.map (·.sql) =
      some ("SELECT posts.* FROM posts WHERE views > $1 AND EXISTS (SELECT comments.* FROM comments "
        ++ "WHERE spam = $2 AND author_id IN (SELECT users.* FROM users WHERE active = $3))"))
    ((run discussed).get? 0)).mp (by decide +kernel)
  obtain ⟨d, hd, hinner⟩ := (Option.any_eq_true (fun d =>
    ((run discussed).toSql d).toOption.map (·.sql) =
      some "SELECT users.* FROM users WHERE active = $1" ∧ d.stage ≠ .released)
    ((run discussed).get? 2)).mp (by decide +kernel)
  -- Both links were made earlier and are still there.
  obtain ⟨b₀, hb₀, htaken₀⟩ := (Option.any_eq_true (fun b => (b.add commented).2.isNone)
    ((run apart).get? 0)).mp (by decide +kernel)
  obtain ⟨b₁, hb₁, htaken₁⟩ := (Option.any_eq_true (fun b => (b.add authored).2.isNone)
    ((run (apart ++ [.clause 0 commented])).get? 1)).mp (by decide +kernel)
  obtain ⟨outerWord, _, houter⟩ := (queries_compose (run apart) 1).2 0 b₀ commented hb₀ rfl
    (Option.isNone_iff_eq_none.mp htaken₀)
  obtain ⟨word, _, hauthored⟩ := (queries_compose (run (apart ++ [.clause 0 commented])) 2).2 1 b₁
    authored hb₁ rfl (Option.isNone_iff_eq_none.mp htaken₁)
  have hnests : (run discussed).Nests 0 word 2 :=
    ⟨1, .single ⟨outerWord, houter (.clause 1 authored :: afterwards) (by simp [afterwards])⟩,
      hauthored afterwards (by simp [afterwards])⟩
  obtain ⟨hquiet, halive⟩ := of_decide_eq_true hinner
  have hloud := of_decide_eq_true hsql
  obtain ⟨hcollected, _, hshown⟩ := (queries_compose (run discussed) 2).1 d hd halive
  cases hst : (run discussed).toSql b with
  | error e =>
      rw [hst] at hloud
      cases hloud
  | ok st =>
      obtain ⟨inner, hinner, hshows⟩ := hshown 0 word st hnests (.inl ⟨b, hb, hst⟩)
      have hagree := hcollected [.null, .null]
      rw [hinner] at hagree hquiet
      rw [hst] at hloud
      rcases hagree.cases_ with ⟨e, _, hfault⟩ | ⟨x, inner', hx, heq, hvalues, hrenumbered⟩
      · cases hfault
      · obtain rfl := Except.ok.inj heq
        refine ⟨b, d, st, inner, word, hb, hd, halive, hst, hinner, hnests, hshows, ?_, ?_, x.1, ?_,
          hrenumbered⟩
        · exact Option.some.inj hquiet
        · exact Option.some.inj hloud
        · rw [hx, ← hvalues]

end Shelf

end TableLoom.Query
