import Mathlib.Logic.Relation
import TableLoom.Proofs.Schema.Sweep

/-!
A table is rejected exactly when relationships lead from it to a table with an error of its own.
-/

namespace TableLoom.Schema

namespace Registry

/-- What is known of the tables: all names, and the tables that could be merged. -/
def known (r : Registry) : Known :=
  r.entries.map fun e => (e.table, e.merge.toOption.map (·.table))

/-- The tables with an error of their own. -/
inductive Faulty (r : Registry) : String → Prop
  /-- The contributions make no table. -/
  | unmerged {e : Entry} {error : MergeError} (mem : e ∈ r.entries)
      (failed : e.merge = .error error) : Faulty r e.table
  /-- A rule for single tables is broken. -/
  | broken {e : Entry} {m : Merged} {v : Violation} (mem : e ∈ r.entries)
      (merged : e.merge = .ok m) (found : v ∈ m.table.violations r.known)
      (error : v.severity = .error) : Faulty r e.table
  /-- An earlier table has the same record name. -/
  | repeated {before after : List Entry} {e e' : Entry} {m m' : Merged}
      (order : r.entries = before ++ e :: after) (merged : e.merge = .ok m)
      (earlier : e' ∈ before) (merged' : e'.merge = .ok m')
      (same : m'.table.recordName = m.table.recordName) : Faulty r e.table

theorem Faulty.exists_entry {r : Registry} {t : String} (h : r.Faulty t) :
    ∃ e ∈ r.entries, e.table = t := by
  cases h with
  | unmerged mem => exact ⟨_, mem, rfl⟩
  | broken mem => exact ⟨_, mem, rfl⟩
  | repeated order => exact ⟨_, by simp [order], rfl⟩

/-- A relationship of a merged table leads to another table. -/
def LeadsTo (r : Registry) (t u : String) : Prop :=
  ∃ e ∈ r.entries, e.table = t ∧ ∃ m, e.merge = .ok m ∧
    ∃ rel ∈ m.table.relationships, rel.references.table = u

/-- The subjects before the first sweep. -/
def examined (r : Registry) : List Subject :=
  Examination.applyRules r.known [] (r.entries.map Subject.ofEntry)

theorem eq_of_table_eq {r : Registry} {e e' : Entry} (he : e ∈ r.entries) (he' : e' ∈ r.entries)
    (h : e.table = e'.table) : e = e' :=
  List.inj_on_of_nodup_map r.distinct he he' h

theorem before_unique {r : Registry} {before before' after after' : List Entry} {e : Entry}
    (order : r.entries = before ++ e :: after) (order' : r.entries = before' ++ e :: after') :
    before = before' := by
  have hnodup := List.Nodup.of_map _ r.distinct
  rw [order, List.nodup_append, List.nodup_cons] at hnodup
  obtain ⟨_, ⟨hafter, _⟩, hdisjoint⟩ := hnodup
  have hbefore : e ∉ before := fun h => hdisjoint e h e List.mem_cons_self rfl
  exact ((List.append_cons_inj_of_notMem hbefore hafter).mp (order.symm.trans order')).1

/-- A merged table has an error of its own when a rule finds one or its record name is taken. -/
theorem faulty_iff_of_merged {r : Registry} {before after : List Entry} {e : Entry} {m : Merged}
    (order : r.entries = before ++ e :: after) (merged : e.merge = .ok m) :
    r.Faulty e.table ↔ (∃ v ∈ m.table.violations r.known, v.severity = .error) ∨
      ∃ e' ∈ before, ∃ m', e'.merge = .ok m' ∧ m'.table.recordName = m.table.recordName := by
  have hmem : e ∈ r.entries := by simp [order]
  constructor
  · intro h
    generalize htable : e.table = t at h
    cases h with
    | unmerged mem failed =>
        cases eq_of_table_eq hmem mem htable
        rw [merged] at failed
        exact absurd failed (by simp)
    | broken mem merged' found error =>
        cases eq_of_table_eq hmem mem htable
        rw [merged] at merged'
        cases merged'
        exact Or.inl ⟨_, found, error⟩
    | repeated order' merged' earlier first same =>
        cases eq_of_table_eq hmem (by simp [order']) htable
        rw [merged] at merged'
        cases merged'
        rw [before_unique order order']
        exact Or.inr ⟨_, earlier, _, first, same⟩
  · rintro (⟨v, found, error⟩ | ⟨e', earlier, m', first, same⟩)
    · exact .broken hmem merged found error
    · exact .repeated order merged earlier first same

/-- The owners of record names are the merged tables that came before. -/
def OwnedBy (owners : List (String × String)) (before : List Entry) : Prop :=
  ∀ name, (owners.lookup name).isSome ↔
    ∃ e ∈ before, ∃ m, e.merge = .ok m ∧ m.table.recordName = name

theorem recordClash_isEmpty (owners : List (String × String)) (t : Table) :
    (Examination.recordClash owners t).isEmpty = !(owners.lookup t.recordName).isSome := by
  unfold Examination.recordClash
  cases owners.lookup t.recordName with
  | none => rfl
  | some owner => rfl

theorem OwnedBy.after_merged {owners : List (String × String)} {before : List Entry} {e : Entry}
    {m : Merged} (h : OwnedBy owners before) (merged : e.merge = .ok m) :
    OwnedBy (if (Examination.recordClash owners m.table).isEmpty then
      (m.table.recordName, m.table.name) :: owners else owners) (before ++ [e]) := by
  intro name
  have hstep : (∃ e' ∈ before ++ [e], ∃ m', e'.merge = .ok m' ∧ m'.table.recordName = name) ↔
      (owners.lookup name).isSome ∨ m.table.recordName = name := by
    rw [h name]
    simp only [List.mem_append, List.mem_singleton, or_and_right, exists_or, exists_eq_left,
      merged, Except.ok.injEq, exists_eq_left']
  rw [hstep, recordClash_isEmpty]
  by_cases htaken : (owners.lookup m.table.recordName).isSome
  · simp only [htaken, Bool.not_true, Bool.false_eq_true, ↓reduceIte]
    constructor
    · exact Or.inl
    · rintro (hname | rfl)
      · exact hname
      · exact htaken
  · simp only [htaken, Bool.not_false, ↓reduceIte, List.lookup_cons]
    by_cases hname : name = m.table.recordName
    · simp [hname]
    · have hne : (name == m.table.recordName) = false := by simpa using hname
      simp [hne, Ne.symm hname]

theorem OwnedBy.after_failed {owners : List (String × String)} {before : List Entry} {e : Entry}
    {error : MergeError} (h : OwnedBy owners before) (failed : e.merge = .error error) :
    OwnedBy owners (before ++ [e]) := by
  intro name
  rw [h name]
  simp [or_and_right, exists_or, failed]

/-- A subject before the first sweep carries an error exactly when its table has one of its own. -/
def Examined (r : Registry) (e : Entry) (s : Subject) : Prop :=
  s.name = e.table ∧ s.merged = e.merge ∧ (s.isRejected = true ↔ r.Faulty e.table)

theorem applyRules_examined {r : Registry} {owners : List (String × String)}
    {before after : List Entry} (order : r.entries = before ++ after)
    (owned : OwnedBy owners before) :
    List.Forall₂ (Examined r) after
      (Examination.applyRules r.known owners (after.map Subject.ofEntry)) := by
  induction after generalizing before owners with
  | nil => exact .nil
  | cons e rest ih =>
      have order' : r.entries = (before ++ [e]) ++ rest := by
        rw [order, List.append_assoc, List.singleton_append]
      cases hmerge : e.merge with
      | error error =>
          have hfaulty : r.Faulty e.table := .unmerged (by simp [order]) hmerge
          have hrejected : (Subject.ofEntry e).isRejected = true := by
            unfold Subject.ofEntry Subject.isRejected
            rw [hmerge]
            cases error with
            | malformed => rfl
            | declaredTwice => rfl
          have htable : (Subject.ofEntry e).table? = none := by
            simp [Subject.table?, Subject.ofEntry, hmerge, Except.toOption]
          rw [List.map_cons, Examination.applyRules, htable]
          refine .cons ⟨rfl, rfl, ?_⟩ (ih order' (owned.after_failed hmerge))
          simp [hrejected, hfaulty]
      | ok m =>
          have htable : (Subject.ofEntry e).table? = some m.table := by
            simp [Subject.table?, Subject.ofEntry, hmerge, Except.toOption]
          rw [List.map_cons, Examination.applyRules, htable]
          refine .cons ⟨rfl, rfl, ?_⟩ (ih order' (owned.after_merged hmerge))
          rw [faulty_iff_of_merged order hmerge, Subject.isRejected_add]
          have hclean : (Subject.ofEntry e).isRejected = false := by
            unfold Subject.ofEntry Subject.isRejected
            rw [hmerge]
            rfl
          have hclash : (Examination.recordClash owners m.table).any (·.severity == .error) =
              (owners.lookup m.table.recordName).isSome := by
            unfold Examination.recordClash
            cases owners.lookup m.table.recordName with
            | none => rfl
            | some owner => rfl
          rw [hclean, Bool.false_or, List.any_append, hclash, ← owned m.table.recordName,
            Bool.or_eq_true, List.any_eq_true]
          simp only [beq_iff_eq]

theorem examined_spec (r : Registry) : List.Forall₂ (Examined r) r.entries r.examined :=
  applyRules_examined (List.nil_append _).symm fun name => by simp

theorem names_examined (r : Registry) : r.examined.map Subject.name = r.tables :=
  map_eq_of_paired (examined_spec r) fun _ _ h => h.1

/-- Relationships lead from the table to one with an error of its own. -/
def Doomed (r : Registry) (t : String) : Prop :=
  ∃ u, Relation.ReflTransGen r.LeadsTo t u ∧ r.Faulty u

theorem leadsTo_of_examined {r : Registry} {s : Subject} {t : Table} {rel : Relationship}
    (hs : s ∈ r.examined) (ht : s.table? = some t) (hrel : rel ∈ t.relationships) :
    r.LeadsTo s.name rel.references.table := by
  obtain ⟨e, he, hname, hmerged, _⟩ := exists_left_of_paired (examined_spec r) hs
  unfold Subject.table? at ht
  rw [hmerged] at ht
  cases hmerge : e.merge with
  | error error => simp [hmerge, Except.toOption] at ht
  | ok m =>
      have htable : m.table = t := by simpa [hmerge, Except.toOption] using ht
      exact ⟨e, he, hname.symm, m, hmerge, rel, htable ▸ hrel, rfl⟩

/-- The names of the subjects with an error before the first sweep. -/
def faultyNames (r : Registry) : List String :=
  (r.examined.filter Subject.isRejected).map (·.name)

theorem mem_faultyNames {r : Registry} {s : Subject} (hs : s ∈ r.examined) :
    s.isRejected = true ↔ s.name ∈ r.faultyNames := by
  unfold faultyNames
  constructor
  · intro h
    exact List.mem_map_of_mem (List.mem_filter.mpr ⟨hs, h⟩)
  · intro h
    obtain ⟨s', hs', hname⟩ := List.mem_map.mp h
    rw [List.mem_filter] at hs'
    have hdistinct : (r.examined.map Subject.name).Nodup := by
      rw [names_examined]
      exact r.distinct
    rw [← List.inj_on_of_nodup_map hdistinct hs'.1 hs hname]
    exact hs'.2

theorem examine_subjects (r : Registry) :
    r.examine.subjects =
      Examination.cascade r.examined.length r.faultyNames r.examined := by
  have hknown : Examination.known (r.entries.map Subject.ofEntry) = r.known := by
    simp [Examination.known, known, Subject.ofEntry, Subject.table?]
  unfold faultyNames examined
  rw [← hknown]
  rfl

/-- The examination settles every subject for the tables that lead to an error, and for no others. -/
theorem examine_settles (r : Registry) :
    ∃ final, List.Forall₂ (Examination.Settled final) r.examined r.examine.subjects ∧
      Examination.Closed final r.examine.subjects ∧ ∀ t, t ∈ final ↔ r.Doomed t := by
  have hstart : List.Forall₂ (Examination.Settled r.faultyNames) r.examined r.examined := by
    rw [List.forall₂_same]
    exact fun s hs => .kept (mem_faultyNames hs)
  have hdistinct : (r.examined.map Subject.name).Nodup := by
    rw [names_examined]
    exact r.distinct
  have hfaulty : ∀ t ∈ r.faultyNames, r.Doomed t := by
    intro t ht
    obtain ⟨s, hs, rfl⟩ := List.mem_map.mp ht
    rw [List.mem_filter] at hs
    obtain ⟨e, _, hname, _, hflag⟩ := exists_left_of_paired (examined_spec r) hs.1
    exact ⟨s.name, .refl, hname ▸ hflag.mp hs.2⟩
  have hback : ∀ s ∈ r.examined, ∀ t, s.table? = some t → ∀ rel ∈ t.relationships,
      r.Doomed rel.references.table → r.Doomed s.name := by
    rintro s hs t ht rel hrel ⟨u, hchain, hu⟩
    exact ⟨u, .head (leadsTo_of_examined hs ht hrel) hchain, hu⟩
  obtain ⟨final, hsettled, hclosed, hmore, hdoomed⟩ :=
    Examination.cascade_settles r.examined.length hstart hdistinct List.countP_le_length
      hfaulty hback
  rw [← examine_subjects] at hsettled hclosed
  refine ⟨final, hsettled, hclosed, fun t => ⟨hdoomed t, ?_⟩⟩
  rintro ⟨u, hchain, hu⟩
  induction hchain using Relation.ReflTransGen.head_induction_on with
  | refl =>
      obtain ⟨e, he, rfl⟩ := hu.exists_entry
      obtain ⟨s, hs, hname, _, hflag⟩ := exists_right_of_paired (examined_spec r) he
      rw [← hname]
      exact hmore ((mem_faultyNames hs).mp (hflag.mpr hu))
  | @head a b hstep _ hb =>
      obtain ⟨e, he, rfl, m, hmerge, rel, hrel, rfl⟩ := hstep
      obtain ⟨s, hs, hname, hmerged, _⟩ := exists_right_of_paired (examined_spec r) he
      obtain ⟨s', hs', hsettled'⟩ := exists_right_of_paired hsettled hs
      have htable : s'.table? = some m.table := by
        rw [hsettled'.table?_eq]
        simp [Subject.table?, hmerged, hmerge, Except.toOption]
      by_contra hleft
      have hsound : s'.name ∉ final := by
        rw [hsettled'.name_eq, hname]
        exact hleft
      exact hclosed s' hs' hsound m.table htable rel hrel hb

theorem names_examine (r : Registry) : r.examine.subjects.map Subject.name = r.tables := by
  obtain ⟨final, hsettled, _⟩ := examine_settles r
  rw [← names_examined]
  exact map_eq_of_paired hsettled fun _ _ h => h.name_eq

theorem isRejected_iff_doomed {r : Registry} {s : Subject} (hs : s ∈ r.examine.subjects) :
    s.isRejected = true ↔ r.Doomed s.name := by
  obtain ⟨final, hsettled, _, hfinal⟩ := examine_settles r
  obtain ⟨s₀, _, h⟩ := exists_left_of_paired hsettled hs
  rw [h.isRejected_iff, h.name_eq, hfinal]

theorem has_of_sound {t : Table} {known : Known} {rel : Relationship}
    (sound : ∀ v ∈ t.violations known, v.severity ≠ .error) (hrel : rel ∈ t.relationships) :
    known.has rel.references.table = true := by
  have hscan (members : List String) (rels : List Relationship) (h : rel ∈ rels)
      (hunknown : known.has rel.references.table = false) :
      .unknownTable t.name rel.column rel.references.table ∈
        Rules.scanRelationships t known members rels := by
    induction rels generalizing members with
    | nil => simp at h
    | cons r rest ih =>
        unfold Rules.scanRelationships
        rcases List.mem_cons.mp h with rfl | h
        · simp [hunknown]
        · split
          · exact List.mem_append_right _ (ih _ h)
          · exact List.mem_cons_of_mem _ (ih _ h)
  by_contra hunknown
  rw [Bool.not_eq_true] at hunknown
  have hfound : .unknownTable t.name rel.column rel.references.table ∈ t.violations known := by
    unfold Table.violations
    rw [List.mem_flatMap]
    exact ⟨Rules.relationships, by simp [Rules.all], hscan _ _ hrel hunknown⟩
  exact sound _ hfound rfl

theorem Doomed.mem_tables {r : Registry} {t : String} (h : r.Doomed t) : t ∈ r.tables := by
  have hmem (e : Entry) (he : e ∈ r.entries) : e.table ∈ r.tables := List.mem_map_of_mem he
  obtain ⟨u, hchain, hu⟩ := h
  cases hchain using Relation.ReflTransGen.head_induction_on with
  | refl =>
      obtain ⟨e, he, rfl⟩ := hu.exists_entry
      exact hmem e he
  | head hstep _ =>
      obtain ⟨e, he, rfl, _⟩ := hstep
      exact hmem e he

theorem mem_rejected_iff (r : Registry) (t : String) : t ∈ r.examine.rejected ↔ r.Doomed t := by
  unfold Examination.rejected
  constructor
  · intro h
    obtain ⟨s, hs, rfl⟩ := List.mem_map.mp h
    rw [List.mem_filter] at hs
    exact (isRejected_iff_doomed hs.1).mp hs.2
  · intro h
    have hmem := h.mem_tables
    rw [← names_examine] at hmem
    obtain ⟨s, hs, rfl⟩ := List.mem_map.mp hmem
    exact List.mem_map_of_mem (List.mem_filter.mpr ⟨hs, (isRejected_iff_doomed hs).mpr h⟩)

theorem isRejected_iff_mem {r : Registry} {s : Subject} (hs : s ∈ r.examine.subjects) :
    s.isRejected = true ↔ s.name ∈ r.examine.rejected := by
  rw [isRejected_iff_doomed hs, mem_rejected_iff]

theorem rejected_eq_filter (r : Registry) :
    r.examine.rejected = r.tables.filter (fun t => t ∈ r.examine.rejected) := by
  rw [← names_examine, List.filter_map]
  unfold Examination.rejected
  apply congrArg
  apply List.filter_congr
  intro s hs
  rw [Bool.eq_iff_iff, isRejected_iff_mem hs]
  simp [Examination.rejected]

theorem accepted_eq_filter (r : Registry) :
    r.examine.accepted = r.tables.filter (fun t => t ∉ r.examine.rejected) := by
  rw [← names_examine, List.filter_map]
  unfold Examination.accepted
  apply congrArg
  apply List.filter_congr
  intro s hs
  rw [Bool.eq_iff_iff, Bool.not_eq_true', ← Bool.not_eq_true, isRejected_iff_mem hs]
  simp

theorem mem_accepted_iff {r : Registry} {t : String} :
    t ∈ r.examine.accepted ↔ t ∈ r.tables ∧ t ∉ r.examine.rejected := by
  rw [accepted_eq_filter]
  simp

theorem leadsTo_accepted {r : Registry} {t u : String} (ht : t ∈ r.examine.accepted)
    (h : r.LeadsTo t u) : u ∈ r.examine.accepted := by
  rw [mem_accepted_iff] at ht ⊢
  have hsound : ¬ r.Doomed t := fun hd => ht.2 ((mem_rejected_iff r t).mpr hd)
  refine ⟨?_, ?_⟩
  · obtain ⟨e, he, rfl, m, hmerge, rel, hrel, rfl⟩ := h
    have hknown : r.known.has rel.references.table = true :=
      has_of_sound (fun v hv hs => hsound ⟨e.table, .refl, .broken he hmerge hv hs⟩) hrel
    simpa [Known.has, known, tables] using hknown
  · intro hu
    obtain ⟨w, hchain, hw⟩ := (mem_rejected_iff r u).mp hu
    exact hsound ⟨w, .head h hchain, hw⟩

/-- A rejected table without an error of its own has the one that names what it depends on. -/
theorem errors_of_drawn {r : Registry} {s : Subject} (hs : s ∈ r.examine.subjects)
    (rejected : s.name ∈ r.examine.rejected) (sound : ¬ r.Faulty s.name) :
    ∃ column target, r.LeadsTo s.name target ∧ target ∈ r.examine.rejected ∧
      s.findings.errors = [(Violation.dependsOnRejected s.name column target).finding] := by
  obtain ⟨final, hsettled, _, hfinal⟩ := examine_settles r
  obtain ⟨s₀, hs₀, h⟩ := exists_left_of_paired hsettled hs
  obtain ⟨e, _, hname, _, hflag⟩ := exists_left_of_paired (examined_spec r) hs₀
  have hclean : s₀.isRejected = false := by
    rw [← Bool.not_eq_true, hflag, ← hname, ← h.name_eq]
    exact sound
  cases h with
  | kept => exact absurd ((isRejected_iff_mem hs).mpr rejected) (by simp [hclean])
  | @drawn t rel _ _ htable hrel hbad =>
      have hleads : r.LeadsTo s₀.name rel.references.table :=
        leadsTo_of_examined hs₀ htable hrel
      refine ⟨rel.column, rel.references.table, hleads, ?_, ?_⟩
      · rw [mem_rejected_iff, ← hfinal]
        exact hbad
      · rw [Subject.errors_add, Subject.errors_eq_nil hclean]
        rfl

/-- The examination accepts and rejects in the order of the registry. It rejects exactly the tables
from which relationships lead to an error; one that has none of its own says so once, with the
rejected table that it depends on; accepted tables are free of errors and lead to accepted ones. The
cascade has ended: another sweep would change nothing. -/
theorem rejection_is_reachability (r : Registry) :
    r.examine.subjects.map Subject.name = r.tables ∧
    r.examine.accepted = r.tables.filter (fun t => t ∉ r.examine.rejected) ∧
    r.examine.rejected = r.tables.filter (fun t => t ∈ r.examine.rejected) ∧
    (∀ t, t ∈ r.examine.rejected ↔ ∃ u, Relation.ReflTransGen r.LeadsTo t u ∧ r.Faulty u) ∧
    (∀ s ∈ r.examine.subjects, s.name ∈ r.examine.rejected → ¬ r.Faulty s.name →
      ∃ f, s.findings.errors = [f] ∧ f.code = "REFERENCED_TABLE_REJECTED" ∧
        ∃ column target, f = (Violation.dependsOnRejected s.name column target).finding ∧
          r.LeadsTo s.name target ∧ target ∈ r.examine.rejected) ∧
    (∀ s ∈ r.examine.subjects, s.name ∈ r.examine.accepted → s.findings.errors = []) ∧
    (∀ t ∈ r.examine.accepted, ∀ u, r.LeadsTo t u → u ∈ r.examine.accepted) ∧
    Examination.sweep r.examine.rejected r.examine.subjects =
      (r.examine.subjects, r.examine.rejected) := by
  refine ⟨names_examine r, accepted_eq_filter r, rejected_eq_filter r, mem_rejected_iff r,
    ?_, ?_, fun t ht u hu => leadsTo_accepted ht hu, ?_⟩
  · intro s hs hrejected hsound
    obtain ⟨column, target, hleads, hbad, herrors⟩ := errors_of_drawn hs hrejected hsound
    exact ⟨_, herrors, rfl, column, target, rfl, hleads, hbad⟩
  · intro s hs haccepted
    apply Subject.errors_eq_nil
    rw [← Bool.not_eq_true, isRejected_iff_mem hs]
    exact (mem_accepted_iff.mp haccepted).2
  · obtain ⟨final, _, hclosed, hfinal⟩ := examine_settles r
    apply Examination.sweep_of_closed
    intro s hs hn t ht rel hrel
    rw [mem_rejected_iff, ← hfinal] at hn ⊢
    exact hclosed s hs hn t ht rel hrel

end Registry

end TableLoom.Schema
