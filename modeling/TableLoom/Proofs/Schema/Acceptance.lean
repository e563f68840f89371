import TableLoom.Proofs.Schema.Cascade
import TableLoom.Proofs.Schema.Merging

/-!
What an accepted table has passed: its names can stand in emitted source, its relationships start from
columns that it has, and they lead to accepted tables.
-/

namespace TableLoom.Schema

namespace Rules

theorem forall_mem_when {broken : Bool} {v : Violation} {p : Violation → Prop} :
    (∀ w ∈ when broken v, p w) ↔ (broken = true → p v) := by
  simp only [mem_when, and_imp, forall_comm (α := Violation), forall_eq]

theorem oneRelationship_mem {t : Table} {known : Known} (members : List String)
    {rels : List Relationship} {rel : Relationship} (hrel : rel ∈ rels)
    (target : known.has rel.references.table = true) :
    ∃ seen, oneRelationship t known seen rel ⊆ scanRelationships t known members rels := by
  induction rels generalizing members with
  | nil => simp at hrel
  | cons first rest ih =>
      unfold scanRelationships
      rcases List.mem_cons.mp hrel with rfl | hrel
      · exact ⟨members, by simp [target]⟩
      · split
        · obtain ⟨seen, h⟩ := ih (first.member :: members) hrel
          exact ⟨seen, fun v hv => List.mem_append_right _ (h hv)⟩
        · obtain ⟨seen, h⟩ := ih members hrel
          exact ⟨seen, fun v hv => List.mem_cons_of_mem _ (h hv)⟩

/-- Relationships to known tables have members of their own, apart from those that were there. -/
theorem members_of_scan {t : Table} {known : Known} {members : List String} {rels : List Relationship}
    (targets : ∀ rel ∈ rels, known.has rel.references.table = true)
    (sound : ∀ v ∈ scanRelationships t known members rels, v.severity ≠ .error) :
    (rels.map (·.member)).Nodup ∧ ∀ rel ∈ rels, rel.member ∉ members := by
  induction rels generalizing members with
  | nil => simp
  | cons rel rest ih =>
      obtain ⟨htarget, htargets⟩ := List.forall_mem_cons.mp targets
      rw [scanRelationships, if_pos htarget, List.forall_mem_append] at sound
      obtain ⟨hnodup, hfresh⟩ := ih htargets sound.2
      have hmember : rel.member ∉ members := by
        intro hseen
        have hfirst := sound.1
        simp only [oneRelationship, List.forall_mem_append] at hfirst
        obtain ⟨⟨-, hmember⟩, -⟩ := hfirst
        split at hmember
        · exact hmember _ (List.mem_singleton_self _) rfl
        · rw [forall_mem_when] at hmember
          exact hmember (List.contains_iff_mem.mpr hseen) rfl
      refine ⟨List.nodup_cons.mpr ⟨fun hlater => ?_, hnodup⟩, List.forall_mem_cons.mpr ⟨hmember, ?_⟩⟩
      · obtain ⟨other, hother, heq⟩ := List.mem_map.mp hlater
        exact hfresh other hother (heq ▸ List.mem_cons_self)
      · exact fun other hother hseen => hfresh other hother (List.mem_cons_of_mem _ hseen)

end Rules

theorem Table.exists_of_hasField {t : Table} {name : String} (h : t.hasField name = true) :
    ∃ f ∈ t.fields, f.name = name := by
  obtain ⟨f, hf⟩ := Option.isSome_iff_exists.mp h
  have hname := List.find?_some hf
  exact ⟨f, List.mem_reverse.mp (List.mem_of_find?_eq_some hf), by simpa using hname⟩

/-- No rule finds an error in the table. -/
def Table.Passes (t : Table) (known : Known) : Prop :=
  ∀ v ∈ t.violations known, v.severity ≠ .error

namespace Table.Passes

variable {t : Table} {known : Known} (h : t.Passes known)

include h

theorem rule {r : Table → Known → List Violation} (hr : r ∈ Rules.all) :
    ∀ v ∈ r t known, v.severity ≠ .error :=
  fun v hv => h v (List.mem_flatMap.mpr ⟨r, hr, hv⟩)

theorem names : isName t.name = true ∧ t.name ∉ reservedModules ∧ startsWith "_" t.name = false := by
  have hrule := h.rule (r := Rules.identifiers) (by simp [Rules.all])
  simp only [Rules.identifiers, List.mem_append, or_imp, forall_and] at hrule
  have hname := hrule.1.1.1.2
  unfold Rules.tableNames at hname
  split at hname
  · exact absurd rfl (hname _ (List.mem_singleton_self _))
  · rename_i hok
    rw [Rules.forall_mem_when] at hname
    exact ⟨by simpa using hok, by simpa [Violation.severity] using hname⟩

theorem record : isName t.recordName = true ∧ t.recordName ∉ reservedRecords := by
  have hrule := h.rule (r := Rules.identifiers) (by simp [Rules.all])
  simp only [Rules.identifiers, List.mem_append, or_imp, forall_and, Rules.forall_mem_when] at hrule
  have hrecord := hrule.1.1.2
  simpa [Violation.severity] using hrecord

theorem recordName : isName t.recordName = true := h.record.1

theorem fields : ∀ f ∈ t.fields, Text.isIdentifier f.name = true ∧ isReservedMember f.name = false := by
  intro f hf
  have hrule : ∀ v ∈ Rules.fieldNames t f, v.severity ≠ .error := by
    intro v hv
    refine h.rule (r := Rules.identifiers) (by simp [Rules.all]) v ?_
    simp only [Rules.identifiers, List.mem_append, List.mem_flatMap]
    exact .inl (.inr ⟨f, hf, hv⟩)
  unfold Rules.fieldNames at hrule
  split at hrule
  · exact absurd rfl (hrule _ (List.mem_singleton_self _))
  · next hname =>
      rw [Rules.forall_mem_when] at hrule
      exact ⟨by simpa using hname, by simpa [Violation.severity] using hrule⟩

theorem fieldNames : ∀ f ∈ t.fields, Text.isIdentifier f.name = true :=
  fun f hf => (h.fields f hf).1

theorem relationships : ∀ rel ∈ t.relationships,
    t.hasField rel.column = true ∧ isName rel.member = true := by
  intro rel hrel
  obtain ⟨seen, hsub⟩ := Rules.oneRelationship_mem t.fieldNames hrel
    (Registry.has_of_sound h hrel)
  have hrule (v : Violation) (hv : v ∈ Rules.oneRelationship t known seen rel) :
      v.severity ≠ .error :=
    h.rule (r := Rules.relationships) (by simp [Rules.all]) v (hsub hv)
  simp only [Rules.oneRelationship, List.mem_append, or_imp, forall_and,
    Rules.forall_mem_when] at hrule
  obtain ⟨⟨hcolumn, hmember⟩, -⟩ := hrule
  refine ⟨by simpa [Violation.severity] using hcolumn, ?_⟩
  by_contra hbad
  rw [if_pos (by simpa using hbad)] at hmember
  exact hmember _ (List.mem_singleton_self _) rfl

theorem members : (t.relationships.map (·.member)).Nodup ∧
    ∀ rel ∈ t.relationships, rel.member ∉ t.fieldNames :=
  Rules.members_of_scan (fun _ hrel => Registry.has_of_sound h hrel)
    (h.rule (r := Rules.relationships) (by simp [Rules.all]))

end Table.Passes

theorem Entry.amounts_of_merge {e : Entry} {m : Merged} (h : e.merge = .ok m) : e.Amounts m := by
  cases herrors : e.errors with
  | nil => exact ((merge_ok_iff herrors m).mp h).2
  | cons error rest => simp [merge, herrors] at h

namespace Registry

variable {r : Registry}

/-- A subject without an error is a merged table that passes the rules. -/
theorem table?_of_left {s : Subject} (hs : s ∈ r.examine.subjects) (left : s.isRejected = false) :
    ∃ e ∈ r.entries, ∃ m, e.merge = .ok m ∧ s.table? = some m.table ∧ m.table.name = s.name ∧
      m.table.Passes r.known := by
  obtain ⟨final, hsettled, -⟩ := examine_settles r
  obtain ⟨s₀, hs₀, hstep⟩ := exists_left_of_paired hsettled hs
  obtain ⟨e, he, hname, hmerged, -⟩ := exists_left_of_paired (examined_spec r) hs₀
  have hsound : ¬ r.Doomed e.table := by
    rw [← hname, ← hstep.name_eq, ← isRejected_iff_doomed hs, left]
    simp
  cases hmerge : e.merge with
  | error error => exact absurd ⟨e.table, .refl, .unmerged he hmerge⟩ hsound
  | ok m =>
      refine ⟨e, he, m, hmerge, ?_, ?_, ?_⟩
      · rw [hstep.table?_eq]
        simp [Subject.table?, hmerged, hmerge, Except.toOption]
      · rw [hstep.name_eq, hname, (Entry.amounts_of_merge hmerge).name]
      · exact fun v hv herror => hsound ⟨e.table, .refl, .broken he hmerge hv herror⟩

theorem names_tables (r : Registry) : r.examine.tables.map (·.name) = r.examine.accepted := by
  unfold Examination.tables Examination.accepted
  rw [List.map_filterMap, ← List.filterMap_eq_map]
  apply List.filterMap_congr
  intro s hs
  rw [List.mem_filter, Bool.not_eq_true'] at hs
  obtain ⟨e, -, m, -, htable, hname, -⟩ := table?_of_left hs.1 hs.2
  simp [htable, hname]

theorem mem_tables {t : Table} (ht : t ∈ r.examine.tables) :
    ∃ e ∈ r.entries, ∃ m, e.merge = .ok m ∧ m.table = t ∧ t.Passes r.known := by
  obtain ⟨s, hs, hst⟩ := List.mem_filterMap.mp ht
  rw [List.mem_filter, Bool.not_eq_true'] at hs
  obtain ⟨e, he, m, hmerge, htable, -, hpasses⟩ := table?_of_left hs.1 hs.2
  rw [hst, Option.some_inj] at htable
  exact ⟨e, he, m, hmerge, htable.symm, htable ▸ hpasses⟩

/-- The fields of an accepted table and the members of its relationships are all different. -/
theorem nodup_members {t : Table} (ht : t ∈ r.examine.tables) :
    (t.fieldNames ++ t.relationships.map (·.member)).Nodup := by
  obtain ⟨e, -, m, hmerge, rfl, hpasses⟩ := mem_tables ht
  obtain ⟨hmembers, hfresh⟩ := hpasses.members
  refine List.nodup_append'.mpr ⟨(Entry.amounts_of_merge hmerge).distinct, hmembers, ?_⟩
  intro name hfield hmember
  obtain ⟨rel, hrel, rfl⟩ := List.mem_map.mp hmember
  exact hfresh rel hrel hfield

theorem mem_accepted_of_mem {t : Table} (ht : t ∈ r.examine.tables) : t.name ∈ r.examine.accepted := by
  rw [← names_tables]
  exact List.mem_map_of_mem ht

/-- The table of an accepted name. -/
theorem exists_table {name : String} (h : name ∈ r.examine.accepted) :
    ∃ t ∈ r.examine.tables, t.name = name := by
  rw [← names_tables] at h
  exact List.mem_map.mp h

theorem isIdentifier_field {t : Table} (ht : t ∈ r.examine.tables) {name : String} (h : t.hasField name = true) :
    Text.isIdentifier name = true := by
  obtain ⟨-, -, -, -, -, hpasses⟩ := mem_tables ht
  obtain ⟨f, hf, rfl⟩ := Table.exists_of_hasField h
  exact hpasses.fieldNames f hf

theorem hasField_eq_false {t : Table} (ht : t ∈ r.examine.tables) {name : String}
    (unnamed : Text.isIdentifier name = false) : t.hasField name = false := by
  by_contra h
  have hidentifier := isIdentifier_field ht (Bool.not_eq_false _ ▸ h)
  exact absurd (unnamed.symm.trans hidentifier) Bool.false_ne_true

theorem table?_known {t : Table} (ht : t ∈ r.examine.tables) : r.known.table? t.name = some t := by
  obtain ⟨e, he, m, hmerge, rfl, -⟩ := mem_tables ht
  obtain ⟨before, after, hentries⟩ := List.append_of_mem he
  have hbefore : ∀ k ∈ before.map fun e : Entry => (e.table, e.merge.toOption.map (·.table)),
      (e.table != k.1) = true := by
    intro k hk
    obtain ⟨e', he', rfl⟩ := List.mem_map.mp hk
    have hdistinct := r.distinct
    rw [hentries, List.map_append, List.nodup_append] at hdistinct
    simpa using (hdistinct.2.2 _ (List.mem_map_of_mem he') _ (List.mem_map_of_mem List.mem_cons_self)).symm
  have hlookup : r.known.lookup e.table = some (some m.table) :=
    List.lookup_eq_some_iff.mpr ⟨_, after.map fun e => (e.table, e.merge.toOption.map (·.table)),
      by simp [known, hentries, hmerge, Except.toOption], hbefore⟩
  rw [(Entry.amounts_of_merge hmerge).name, Known.table?, hlookup, Option.join_some]

theorem nodup_accepted (r : Registry) : r.examine.accepted.Nodup := by
  rw [accepted_eq_filter]
  exact r.distinct.filter _

/-- Relationships of accepted tables lead to accepted tables. -/
theorem target_mem_accepted {t : Table} (ht : t ∈ r.examine.tables) {rel : Relationship}
    (hrel : rel ∈ t.relationships) : rel.references.table ∈ r.examine.accepted := by
  obtain ⟨e, he, m, hmerge, rfl, -⟩ := mem_tables ht
  have haccepted := mem_accepted_of_mem ht
  rw [(Entry.amounts_of_merge hmerge).name] at haccepted
  exact leadsTo_accepted haccepted ⟨e, he, rfl, m, hmerge, rel, hrel, rfl⟩

end Registry

end TableLoom.Schema
