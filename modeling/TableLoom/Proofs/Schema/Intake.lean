import TableLoom.Schema.Directory

/-!
What a registry takes in, one by one. Each fragment and each error ends up in one place: with the table
that it names, or beside all tables. What a table holds depends on nothing but what names it.
-/

namespace TableLoom.Schema

/-- The table that a fragment is for, or that an error names. -/
def Arrival.table? : Arrival → Option String
  | .ok f => some f.table
  | .error e => e.table.filter (!·.isEmpty)

/-- Where a fragment or error came from. -/
def Arrival.source? : Arrival → Option String
  | .ok f => f.source
  | .error e => e.source

/-- Adds what arrived for a table. -/
def Entry.take (e : Entry) : Arrival → Entry
  | .ok f => { e with fragments := e.fragments ++ [f] }
  | .error x => { e with errors := e.errors ++ [x] }

/-- All that was taken in for a table. -/
def Entry.contributions (e : Entry) : List Arrival :=
  e.fragments.map .ok ++ e.errors.map .error

@[simp] theorem Entry.table_take (e : Entry) (a : Arrival) : (e.take a).table = e.table := by
  cases a <;> rfl

theorem Entry.contributions_take (e : Entry) (a : Arrival) :
    (e.take a).contributions.Perm (a :: e.contributions) := by
  cases a with
  | ok f =>
      have h : (e.take (.ok f)).contributions = e.fragments.map .ok ++ [.ok f] ++ e.errors.map .error := by
        simp [Entry.take, contributions]
      rw [h, List.append_assoc]
      exact List.perm_middle
  | error x =>
      have h : (e.take (.error x)).contributions = e.contributions ++ [.error x] := by
        simp [Entry.take, contributions]
      rw [h]
      exact List.perm_append_singleton _ _

section

variable {table : String} {change : Entry → Entry}

theorem find?_changeEntry (keeps : ∀ e, (change e).table = e.table) (es : List Entry)
    (other : String) :
    (changeEntry table change es).find? (·.table == other) =
      if other = table then some (change ((es.find? (·.table == table)).getD { table }))
      else es.find? (·.table == other) := by
  induction es with
  | nil => 
      rw [changeEntry]
      by_cases h : other = table
      · simp [h, keeps]
      · simp [h, keeps, Ne.symm h]
  | cons e rest ih =>
      rw [changeEntry]
      by_cases he : e.table = table
      · by_cases h : other = table
        · simp [he, h, keeps]
        · simp [he, h, keeps, Ne.symm h]
      · simp only [beq_iff_eq, he, ↓reduceIte]
        by_cases hother : e.table = other
        · have h : other ≠ table := fun h => he (hother.trans h)
          simp [hother, h]
        · simp [hother, he, ih]

theorem mem_changeEntry {es : List Entry} {e' : Entry} (h : e' ∈ changeEntry table change es) :
    e' ∈ es ∨ ∃ e, (e ∈ es ∨ e = { table }) ∧ e.table = table ∧ e' = change e := by
  induction es with
  | nil => exact .inr ⟨{ table }, .inr rfl, rfl, List.mem_singleton.mp h⟩
  | cons e rest ih =>
      rw [changeEntry] at h
      split at h
      · next he =>
          rcases List.mem_cons.mp h with rfl | h
          · exact .inr ⟨e, .inl List.mem_cons_self, beq_iff_eq.mp he, rfl⟩
          · exact .inl (List.mem_cons_of_mem e h)
      · rcases List.mem_cons.mp h with rfl | h
        · exact .inl List.mem_cons_self
        · refine (ih h).imp (List.mem_cons_of_mem e) ?_
          rintro ⟨d, hd, htable, rfl⟩
          exact ⟨d, hd.imp_left (List.mem_cons_of_mem e), htable, rfl⟩

theorem flatMap_changeEntry {α : Type} {parts : Entry → List α} {a : α}
    (adds : ∀ e, (parts (change e)).Perm (a :: parts e)) (bare : parts { table } = [])
    (es : List Entry) :
    ((changeEntry table change es).flatMap parts).Perm (a :: es.flatMap parts) := by
  induction es with
  | nil => simpa [changeEntry, bare] using adds { table }
  | cons e rest ih =>
      rw [changeEntry]
      split
      · simpa using (adds e).append_right (rest.flatMap parts)
      · rw [List.flatMap_cons, List.flatMap_cons]
        exact (ih.append_left (parts e)).trans List.perm_middle

end

namespace Registry

theorem receive_named {r : Registry} {a : Arrival} {table : String} (h : a.table? = some table) :
    (r.receive a).entries = changeEntry table (·.take a) r.entries ∧
      (r.receive a).inputErrors = r.inputErrors := by
  cases a with
  | ok f => cases h; exact ⟨rfl, rfl⟩
  | error e =>
      have hnamed : e.table.filter (!·.isEmpty) = some table := h
      simp only [receive, recordError, hnamed]
      exact ⟨rfl, trivial⟩

theorem receive_unnamed {r : Registry} {a : Arrival} (h : a.table? = none) :
    ∃ e, a = .error e ∧ (r.receive a).entries = r.entries ∧
      (r.receive a).inputErrors = r.inputErrors ++ [e] := by
  cases a with
  | ok f => cases h
  | error e =>
      have hnone : e.table.filter (!·.isEmpty) = none := h
      refine ⟨e, rfl, ?_, ?_⟩
      all_goals simp only [receive, recordError, hnone]

/-- All that was taken in. -/
def contributions (r : Registry) : List Arrival :=
  r.entries.flatMap Entry.contributions ++ r.inputErrors.map .error

theorem contributions_receive (r : Registry) (a : Arrival) :
    (r.receive a).contributions.Perm (a :: r.contributions) := by
  unfold contributions
  cases h : a.table? with
  | some table =>
      obtain ⟨hentries, hinputs⟩ := receive_named (r := r) h
      rw [hentries, hinputs]
      exact (flatMap_changeEntry (fun e => e.contributions_take a) rfl r.entries).append_right _
  | none =>
      obtain ⟨e, rfl, hentries, hinputs⟩ := receive_unnamed (r := r) h
      rw [hentries, hinputs, List.map_append, ← List.append_assoc]
      exact List.perm_append_singleton _ _

/-- Everything stands with the table that it names, or beside all tables. -/
structure Housed (r : Registry) : Prop where
  named : ∀ e ∈ r.entries, ∀ a ∈ e.contributions, a.table? = some e.table
  unnamed : ∀ x ∈ r.inputErrors, Arrival.table? (.error x) = none

theorem Housed.receive {r : Registry} (h : r.Housed) (a : Arrival) : (r.receive a).Housed := by
  cases ha : a.table? with
  | none =>
      obtain ⟨x, rfl, hentries, hinputs⟩ := receive_unnamed (r := r) ha
      constructor
      · rw [hentries]
        exact h.named
      · rw [hinputs]
        exact List.forall_mem_append.mpr ⟨h.unnamed, List.forall_mem_singleton.mpr ha⟩
  | some table =>
      obtain ⟨hentries, hinputs⟩ := receive_named (r := r) ha
      constructor
      · rw [hentries]
        intro e' he' b hb
        rcases mem_changeEntry he' with hold | ⟨e, he, rfl, rfl⟩
        · exact h.named e' hold b hb
        · rw [(e.contributions_take a).mem_iff, List.mem_cons] at hb
          rw [Entry.table_take]
          rcases hb with rfl | hb
          · exact ha
          · rcases he with he | he
            · exact h.named e he b hb
            · rw [he] at hb
              cases hb
      · rw [hinputs]
        exact h.unnamed

theorem entry?_receive (r : Registry) (a : Arrival) (table : String) :
    entry? (r.receive a) table =
      if a.table? = some table then some ((Option.getD ( entry? r table) { table }).take a)
      else entry? r table := by
  unfold entry?
  cases ha : a.table? with
  | none =>
      obtain ⟨x, rfl, hentries, _⟩ := receive_unnamed (r := r) ha
      rw [hentries, if_neg (by simp)]
  | some named =>
      rw [(receive_named ha).1, find?_changeEntry fun e => e.table_take a]
      by_cases h : table = named
      · rw [if_pos h, if_pos (congrArg some h.symm), h]
      · rw [if_neg h, if_neg fun heq => h (Option.some.inj heq).symm]

/-- Everything is taken in once. -/
theorem contributions_ofArrivals (arrivals : List Arrival) :
    (ofArrivals arrivals).contributions.Perm arrivals := by
  have hfold : ∀ r : Registry,
      (arrivals.foldl receive r).contributions.Perm (r.contributions ++ arrivals) := by
    induction arrivals with
    | nil => exact fun r => by rw [List.append_nil]; rfl
    | cons a rest ih =>
        intro r
        refine (ih (r.receive a)).trans ?_
        exact ((r.contributions_receive a).append_right rest).trans List.perm_middle.symm
  exact hfold {}

theorem housed_ofArrivals (arrivals : List Arrival) : (ofArrivals arrivals).Housed := by
  have hfold : ∀ r : Registry, r.Housed → (arrivals.foldl receive r).Housed := by
    induction arrivals with
    | nil => exact fun _ h => h
    | cons a rest ih => exact fun r h => ih (r.receive a) (h.receive a)
  exact hfold {} ⟨List.forall_mem_nil _, List.forall_mem_nil _⟩

/-- A table holds what names it, whatever else there is. -/
theorem entry?_ofArrivals_filter (arrivals : List Arrival) {keep : Arrival → Bool} {table : String}
    (kept : ∀ a ∈ arrivals, a.table? = some table → keep a = true) :
    entry? (ofArrivals (arrivals.filter keep)) table = entry? (ofArrivals arrivals) table := by
  have hfold : ∀ r r' : Registry, entry? r table = entry? r' table →
      entry? ((arrivals.filter keep).foldl receive r) table =
        entry? (arrivals.foldl receive r') table := by
    induction arrivals with
    | nil => exact fun _ _ h => h
    | cons a rest ih =>
        intro r r' h
        obtain ⟨ha, hrest⟩ := List.forall_mem_cons.mp kept
        have hnext := ih hrest
        by_cases hkeep : keep a = true
        · rw [List.filter_cons_of_pos hkeep]
          refine hnext (r.receive a) (r'.receive a) ?_
          rw [entry?_receive, entry?_receive, h]
        · rw [List.filter_cons_of_neg hkeep]
          refine hnext r (r'.receive a) ?_
          rw [entry?_receive, if_neg fun hnamed => hkeep (ha hnamed), h]
  exact hfold {} {} rfl

end Registry

end TableLoom.Schema
