import Mathlib.Data.List.Nodup
import TableLoom.Proofs.Traversal
import TableLoom.Schema.Examination

/-!
Sweeps over the subjects of an examination. They keep every subject either as it was or with one
violation that names a rejected table, and they stop only when no relationship of a table that is left
leads to a rejected one.
-/

namespace TableLoom.Schema

namespace Subject

@[simp] theorem name_add (s : Subject) (vs : List Violation) : (s.add vs).name = s.name := rfl

@[simp] theorem table?_add (s : Subject) (vs : List Violation) :
    (s.add vs).table? = s.table? := rfl

theorem isRejected_add (s : Subject) (vs : List Violation) :
    (s.add vs).isRejected = (s.isRejected || vs.any (·.severity == .error)) := by
  simp [isRejected, add]

theorem errors_add (s : Subject) (vs : List Violation) :
    (s.add vs).findings.errors =
      s.findings.errors ++ Findings.errors (vs.map Violation.finding) := by
  simp [findings, add, Findings.errors]

theorem errors_eq_nil {s : Subject} (h : s.isRejected = false) : s.findings.errors = [] := by
  unfold isRejected at h
  rw [List.any_eq_false] at h
  unfold findings Findings.errors
  rw [List.filter_eq_nil_iff]
  intro f hf
  obtain ⟨v, hv, rfl⟩ := List.mem_map.mp hf
  exact h v hv

end Subject

namespace Examination

/-- How a subject stands once the named tables are rejected, compared with what it was before. -/
inductive Settled (rejected : List String) (before : Subject) : Subject → Prop
  | kept (flag : before.isRejected = true ↔ before.name ∈ rejected) :
      Settled rejected before before
  | drawn {t : Table} {r : Relationship} (sound : before.isRejected = false)
      (now : before.name ∈ rejected) (table : before.table? = some t)
      (mem : r ∈ t.relationships) (bad : r.references.table ∈ rejected) :
      Settled rejected before
        (before.add [.dependsOnRejected before.name r.column r.references.table])

namespace Settled

variable {rejected rejected' : List String} {s s' : Subject}

theorem name_eq (h : Settled rejected s s') : s'.name = s.name := by
  cases h with
  | kept => rfl
  | drawn => rfl

theorem table?_eq (h : Settled rejected s s') : s'.table? = s.table? := by
  cases h with
  | kept => rfl
  | drawn => rfl

theorem isRejected_iff (h : Settled rejected s s') : s'.isRejected = true ↔ s.name ∈ rejected := by
  cases h with
  | kept flag => exact flag
  | drawn _ now =>
      rw [Subject.isRejected_add]
      simp [now, Violation.severity]

theorem grow (h : Settled rejected s s') (more : rejected ⊆ rejected')
    (same : s.name ∈ rejected' → s.name ∈ rejected) : Settled rejected' s s' := by
  cases h with
  | kept flag => exact .kept (flag.trans ⟨fun h => more h, same⟩)
  | drawn sound now table mem bad => exact .drawn sound (more now) table mem (more bad)

end Settled

/-- No relationship of a table that is left leads to a rejected one. -/
def Closed (rejected : List String) (subjects : List Subject) : Prop :=
  ∀ s ∈ subjects, s.name ∉ rejected → ∀ t, s.table? = some t →
    ∀ r ∈ t.relationships, r.references.table ∉ rejected

theorem dependency?_eq_none {rejected : List String} {t : Table} :
    dependency? rejected t = none ↔ ∀ r ∈ t.relationships, r.references.table ∉ rejected := by
  simp [dependency?]

/-- What a sweep does with the first subject: it goes on, or draws it in. -/
theorem sweep_cons (rejected : List String) (s : Subject) (rest : List Subject) :
    (Closed rejected [s] ∧ sweep rejected (s :: rest) =
        (s :: (sweep rejected rest).1, (sweep rejected rest).2)) ∨
    (∃ t r, s.name ∉ rejected ∧ s.table? = some t ∧ r ∈ t.relationships ∧
      r.references.table ∈ rejected ∧ sweep rejected (s :: rest) =
        (s.add [.dependsOnRejected s.name r.column r.references.table] ::
          (sweep (rejected ++ [s.name]) rest).1, (sweep (rejected ++ [s.name]) rest).2)) := by
  by_cases hs : s.name ∈ rejected
  · left
    constructor
    · intro s' hs' hn
      rw [List.mem_singleton] at hs'
      exact absurd (hs' ▸ hs) hn
    · simp [sweep, hs]
  · cases ht : s.table? with
    | none =>
        left
        constructor
        · intro s' hs' _ t h
          rw [List.mem_singleton] at hs'
          rw [hs', ht] at h
          exact absurd h (by simp)
        · simp [sweep, hs, ht]
    | some t =>
        cases hd : dependency? rejected t with
        | none =>
            left
            constructor
            · intro s' hs' _ t' h
              rw [List.mem_singleton] at hs'
              rw [hs', ht] at h
              cases h
              exact dependency?_eq_none.mp hd
            · simp [sweep, hs, ht, hd]
        | some r =>
            right
            have hmem := List.mem_of_find?_eq_some hd
            have hbad : r.references.table ∈ rejected := by
              simpa using List.find?_some hd
            exact ⟨t, r, hs, rfl, hmem, hbad, by simp [sweep, hs, ht, hd]⟩

theorem sweep_of_closed {rejected : List String} {ss : List Subject} (h : Closed rejected ss) :
    sweep rejected ss = (ss, rejected) := by
  induction ss with
  | nil => rfl
  | cons s rest ih =>
      have hrest := ih fun s' hs' => h s' (List.mem_cons_of_mem _ hs')
      rcases sweep_cons rejected s rest with ⟨_, heq⟩ | ⟨t, r, hn, ht, hr, hbad, _⟩
      · rw [heq, hrest]
      · exact absurd hbad (h s (List.mem_cons_self) hn t ht r hr)

theorem sweep_extends (rejected : List String) (ss : List Subject) :
    ∃ new, (sweep rejected ss).2 = rejected ++ new ∧ ∀ n ∈ new, n ∉ rejected := by
  induction ss generalizing rejected with
  | nil => exact ⟨[], by simp [sweep]⟩
  | cons s rest ih =>
      rcases sweep_cons rejected s rest with ⟨_, heq⟩ | ⟨_, _, hn, _, _, _, heq⟩
      · rw [heq]
        exact ih rejected
      · obtain ⟨new, hnew, hfresh⟩ := ih (rejected ++ [s.name])
        refine ⟨s.name :: new, ?_, ?_⟩
        · rw [heq, hnew, List.append_assoc, List.singleton_append]
        · intro n hmem
          rcases List.mem_cons.mp hmem with rfl | hmem
          · exact hn
          · exact fun h => hfresh n hmem (List.mem_append_left _ h)

/-- A sweep that rejects nothing has found nothing to reject. -/
theorem closed_of_sweep {rejected : List String} {ss : List Subject}
    (h : (sweep rejected ss).2.length = rejected.length) : Closed rejected ss := by
  induction ss with
  | nil => exact fun _ hs => absurd hs (by simp)
  | cons s rest ih =>
      rcases sweep_cons rejected s rest with ⟨hclosed, heq⟩ | ⟨_, _, _, _, _, _, heq⟩
      · rw [heq] at h
        intro s' hs'
        rcases List.mem_cons.mp hs' with rfl | hs'
        · exact hclosed s' (List.mem_singleton_self s')
        · exact ih h s' hs'
      · obtain ⟨new, hnew, hfresh⟩ := sweep_extends (rejected ++ [s.name]) rest
        rw [heq, hnew] at h
        simp at h

theorem settled_grow {rejected rejected' : List String} {base ss : List Subject}
    (h : List.Forall₂ (Settled rejected) base ss) (more : rejected ⊆ rejected')
    (same : ∀ s ∈ base, s.name ∈ rejected' → s.name ∈ rejected) :
    List.Forall₂ (Settled rejected') base ss := by
  induction h with
  | nil => exact .nil
  | @cons s s' base ss head tail ih =>
      have hrest := ih fun b hb => same b (List.mem_cons_of_mem _ hb)
      exact .cons (head.grow more (same s List.mem_cons_self)) hrest

/-- A sweep settles every subject for the tables that are rejected after it. -/
theorem sweep_settled {rejected : List String} {base ss : List Subject}
    (h : List.Forall₂ (Settled rejected) base ss) (distinct : (base.map Subject.name).Nodup) :
    List.Forall₂ (Settled (sweep rejected ss).2) base (sweep rejected ss).1 ∧
      ∀ n ∈ (sweep rejected ss).2, n ∈ rejected ∨ n ∈ base.map Subject.name := by
  induction base generalizing rejected ss with
  | nil =>
      cases h
      exact ⟨.nil, fun n hn => Or.inl hn⟩
  | cons s base ih =>
      cases h with
      | @cons _ s' _ ss head tail =>
          rw [List.map_cons, List.nodup_cons] at distinct
          obtain ⟨fresh, distinct⟩ := distinct
          rcases sweep_cons rejected s' ss with ⟨_, heq⟩ | ⟨t, r, hn, ht, hr, hbad, heq⟩
          · rw [heq]
            obtain ⟨hsettled, hnames⟩ := ih tail distinct
            obtain ⟨new, hnew, hfresh⟩ := sweep_extends rejected ss
            refine ⟨.cons (head.grow ?_ ?_) hsettled, ?_⟩
            · rw [hnew]
              exact List.subset_append_left rejected new
            · intro hs
              exact (hnames _ hs).resolve_right fresh
            · intro n hn
              exact (hnames n hn).imp_right (List.mem_cons_of_mem _)
          · rw [heq]
            rw [head.name_eq] at hn ⊢
            have htail : List.Forall₂ (Settled (rejected ++ [s.name])) base ss := by
              apply settled_grow tail (List.subset_append_left _ _)
              intro b hb hmem
              rw [List.mem_append, List.mem_singleton] at hmem
              exact hmem.resolve_right fun hname => fresh (hname ▸ List.mem_map_of_mem hb)
            obtain ⟨hsettled, hnames⟩ := ih htail distinct
            obtain ⟨new, hnew, hfresh⟩ := sweep_extends (rejected ++ [s.name]) ss
            refine ⟨.cons ?_ hsettled, ?_⟩
            · cases head with
              | drawn _ now => exact absurd now hn
              | kept flag =>
                  have hsound : s.isRejected = false := by
                    rw [← Bool.not_eq_true, flag]
                    exact hn
                  rw [hnew]
                  exact .drawn hsound (by simp) ht hr (by simp [hbad])
            · intro n hmem
              rcases hnames n hmem with hmem | hmem
              · rw [List.mem_append, List.mem_singleton] at hmem
                exact hmem.imp_right fun h => by simp [h]
              · exact Or.inr (List.mem_cons_of_mem _ hmem)

/-- Whatever is passed on along relationships to rejected tables holds of all that a sweep rejects. -/
theorem sweep_sound {rejected : List String} {ss : List Subject} {p : String → Prop}
    (start : ∀ n ∈ rejected, p n)
    (back : ∀ s ∈ ss, ∀ t, s.table? = some t → ∀ r ∈ t.relationships,
      p r.references.table → p s.name) : ∀ n ∈ (sweep rejected ss).2, p n := by
  induction ss generalizing rejected with
  | nil => exact start
  | cons s rest ih =>
      have hback := fun s' hs' => back s' (List.mem_cons_of_mem s hs')
      rcases sweep_cons rejected s rest with ⟨_, heq⟩ | ⟨t, r, _, ht, hr, hbad, heq⟩
      · rw [heq]
        exact ih start hback
      · rw [heq]
        refine ih ?_ hback
        intro n hn
        rw [List.mem_append, List.mem_singleton] at hn
        rcases hn with hn | rfl
        · exact start n hn
        · exact back s List.mem_cons_self t ht r hr (start _ hbad)

/-- How many tables are not rejected; every sweep but the last makes them fewer. -/
def remaining (rejected : List String) (base : List Subject) : Nat :=
  base.countP fun s => !rejected.contains s.name

theorem remaining_lt {rejected new : List String} {base : List Subject} {n : String}
    (hn : n ∈ new) (hbase : n ∈ base.map Subject.name) (fresh : n ∉ rejected) :
    remaining (rejected ++ new) base < remaining rejected base := by
  have hle (ss : List Subject) : remaining (rejected ++ new) ss ≤ remaining rejected ss := by
    apply List.countP_mono_left
    intro s _ hs
    simp only [List.contains_eq_mem, List.mem_append, Bool.not_eq_eq_eq_not, Bool.not_true,
      decide_eq_false_iff_not, not_or] at hs ⊢
    exact hs.1
  induction base with
  | nil => simp at hbase
  | cons s rest ih =>
      rw [List.map_cons, List.mem_cons] at hbase
      unfold remaining at ih hle ⊢
      rw [List.countP_cons, List.countP_cons]
      rcases hbase with rfl | hrest
      · have htail := hle rest
        have hnew : (!(rejected ++ new).contains s.name) = false := by simp [hn]
        have hold : (!rejected.contains s.name) = true := by simp [fresh]
        rw [hnew, hold]
        simp only [Bool.false_eq_true, ↓reduceIte]
        omega
      · have := ih hrest
        have := hle [s]
        simp only [List.countP_singleton] at this
        omega

/-- With as many sweeps as tables remain, the cascade settles every subject and ends closed. -/
theorem cascade_settles {rejected : List String} {base ss : List Subject} {p : String → Prop}
    (fuel : Nat) (h : List.Forall₂ (Settled rejected) base ss)
    (distinct : (base.map Subject.name).Nodup) (enough : remaining rejected base ≤ fuel)
    (start : ∀ n ∈ rejected, p n)
    (back : ∀ s ∈ base, ∀ t, s.table? = some t → ∀ r ∈ t.relationships,
      p r.references.table → p s.name) :
    ∃ final, List.Forall₂ (Settled final) base (cascade fuel rejected ss) ∧
      Closed final (cascade fuel rejected ss) ∧ rejected ⊆ final ∧ ∀ n ∈ final, p n := by
  induction fuel generalizing rejected ss with
  | zero =>
      -- every table is rejected, so none is left that could lead to another
      refine ⟨rejected, h, ?_, fun _ => id, start⟩
      intro s' hs' hn
      obtain ⟨s, hs, hsettled⟩ := exists_left_of_paired h hs'
      have hnone := List.countP_eq_zero.mp (Nat.le_zero.mp enough) s hs
      rw [hsettled.name_eq] at hn
      simp [hn] at hnone
  | succ fuel ih =>
      have hback : ∀ s ∈ ss, ∀ t, s.table? = some t → ∀ r ∈ t.relationships,
          p r.references.table → p s.name := by
        intro s' hs' t ht
        obtain ⟨s, hs, hsettled⟩ := exists_left_of_paired h hs'
        rw [hsettled.name_eq]
        exact back s hs t (hsettled.table?_eq ▸ ht)
      obtain ⟨hsettled, hnames⟩ := sweep_settled h distinct
      have hsound := sweep_sound start hback
      unfold cascade
      by_cases hlen : (sweep rejected ss).2.length = rejected.length
      · have hclosed := closed_of_sweep hlen
        rw [sweep_of_closed hclosed]
        simpa using ⟨rejected, h, hclosed, fun _ => id, start⟩
      · obtain ⟨new, hnew, hfresh⟩ := sweep_extends rejected ss
        obtain ⟨n, hn⟩ : ∃ n, n ∈ new := by
          apply List.exists_mem_of_ne_nil
          rintro rfl
          exact hlen (by rw [hnew, List.append_nil])
        have hbase : n ∈ base.map Subject.name :=
          (hnames n (by simp [hnew, hn])).resolve_left (hfresh n hn)
        have hless := remaining_lt hn hbase (hfresh n hn)
        rw [← hnew] at hless
        obtain ⟨final, hfinal, hclosed, hmore, hp⟩ := ih hsettled (by omega) hsound
        refine ⟨final, ?_, ?_, fun m hm => hmore (by simp [hnew, hm]), hp⟩
        · simpa [hlen] using hfinal
        · simpa [hlen] using hclosed

end Examination

end TableLoom.Schema
