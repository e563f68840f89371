import TableLoom.Proofs.Storage.Growth
import TableLoom.Storage.Disk

/-!
What work on a disk makes of its tree, whichever steps meet a fault: for each operation, what its outcome
tells of the trees before and after. The faults that wait and the notes that are taken are left open.
-/

namespace TableLoom.Storage.Disk

variable {α β : Type} {t t' : Tree} {p : Path}

/-- Some work may lead from one tree to another with this outcome. -/
def Runs (w : Work α) (t : Tree) (r : Except DiskError α) (t' : Tree) : Prop :=
  ∃ d d' : Disk, w.run.run d = (r, d') ∧ d.tree = t ∧ d'.tree = t'

/-- A run that is not refused, and what its result is found to be. -/
theorem exists_of_any {w : Work α} {d : Disk} {p : α → Bool}
    (h : (w.run.run d).1.toOption.any p = true) :
    ∃ a d', w.run.run d = (.ok a, d') ∧ p a = true := by
  rcases hrun : w.run.run d with ⟨e | a, d'⟩
  · rw [hrun] at h
    cases h
  · rw [hrun] at h
    exact ⟨a, d', rfl, h⟩

theorem runs_pure {a : α} {r : Except DiskError α} (h : Runs (pure a) t r t') :
    r = .ok a ∧ t' = t := by
  obtain ⟨d, d', hrun, rfl, rfl⟩ := h
  cases hrun
  exact ⟨rfl, rfl⟩

theorem runs_throw {e : DiskError} {r : Except DiskError α} (h : Runs (throw e) t r t') :
    r = .error e ∧ t' = t := by
  obtain ⟨d, d', hrun, rfl, rfl⟩ := h
  cases hrun
  exact ⟨rfl, rfl⟩

theorem runs_bind {w : Work α} {k : α → Work β} {r : Except DiskError β}
    (h : Runs (w >>= k) t r t') :
    (∃ a t₁, Runs w t (.ok a) t₁ ∧ Runs (k a) t₁ r t') ∨
      ∃ e, r = .error e ∧ Runs w t (.error e) t' := by
  obtain ⟨d, d', hrun, rfl, rfl⟩ := h
  rw [ExceptT.run_bind, StateT.run_bind] at hrun
  rcases hw : w.run.run d with ⟨e | a, d₁⟩
  all_goals rw [hw] at hrun
  · cases hrun
    exact .inr ⟨e, rfl, d, d₁, hw, rfl, rfl⟩
  · exact .inl ⟨a, d₁.tree, ⟨d, d₁, hw, rfl, rfl⟩, d₁, d', hrun, rfl, rfl⟩

theorem runs_bind_pure {w : Work α} {f : α → β} {r : Except DiskError β}
    (h : Runs (w >>= fun a => pure (f a)) t r t') : ∃ r', Runs w t r' t' ∧ r = r'.map f := by
  obtain ⟨a, t₁, hw, hend⟩ | ⟨e, rfl, hw⟩ := runs_bind h
  · obtain ⟨rfl, rfl⟩ := runs_pure hend
    exact ⟨_, hw, rfl⟩
  · exact ⟨_, hw, rfl⟩

theorem runs_throw_bind {e : DiskError} {k : α → Work β} {r : Except DiskError β}
    (h : Runs (throw e >>= k) t r t') : ∃ e, r = .error e ∧ t' = t := by
  obtain ⟨_, _, hthrow, -⟩ | ⟨_, rfl, hthrow⟩ := runs_bind h
  · cases (runs_throw hthrow).1
  · exact ⟨_, rfl, (runs_throw hthrow).2⟩

theorem runs_tryCatch {w : Work α} {recover : DiskError → Work α} {r : Except DiskError α}
    (h : Runs (tryCatch w recover) t r t') :
    (∃ a, r = .ok a ∧ Runs w t (.ok a) t') ∨
      ∃ e t₁, Runs w t (.error e) t₁ ∧ Runs (recover e) t₁ r t' := by
  obtain ⟨d, d', hrun, rfl, rfl⟩ := h
  rw [ExceptT.run_tryCatch, StateT.run_bind] at hrun
  rcases hw : w.run.run d with ⟨e | a, d₁⟩
  all_goals rw [hw] at hrun
  · exact .inr ⟨e, d₁.tree, ⟨d, d₁, hw, rfl, rfl⟩, d₁, d', hrun, rfl, rfl⟩
  · cases hrun
    exact .inl ⟨a, rfl, d, d₁, hw, rfl, rfl⟩

theorem runs_get {k : Disk → Work α} {r : Except DiskError α} (h : Runs (get >>= k) t r t') :
    ∃ d, d.tree = t ∧ Runs (k d) t r t' := by
  obtain ⟨d, d', hrun, rfl, rfl⟩ := h
  exact ⟨d, rfl, d, d', hrun, rfl, rfl⟩

theorem runs_change {f : Tree → Tree} {r : Except DiskError Unit} (h : Runs (change f) t r t') :
    r = .ok () ∧ t' = f t := by
  obtain ⟨d, d', hrun, rfl, rfl⟩ := h
  cases hrun
  exact ⟨rfl, rfl⟩

theorem runs_change_bind {f : Tree → Tree} {k : Unit → Work α} {r : Except DiskError α}
    (h : Runs (change f >>= k) t r t') : Runs (k ()) (f t) r t' := by
  obtain ⟨d, d', hrun, rfl, rfl⟩ := h
  exact ⟨{ d with tree := f d.tree }, d', hrun, rfl, rfl⟩

theorem runs_note {entry : Log.Entry} {r : Except DiskError Unit} (h : Runs (note entry) t r t') :
    r = .ok () ∧ t' = t := by
  obtain ⟨d, d', hrun, rfl, rfl⟩ := h
  cases hrun
  exact ⟨rfl, rfl⟩

theorem runs_note_bind {entry : Log.Entry} {k : Unit → Work α} {r : Except DiskError α}
    (h : Runs (note entry >>= k) t r t') : Runs (k ()) t r t' := by
  obtain ⟨d, d', hrun, rfl, rfl⟩ := h
  exact ⟨{ d with log := d.log ++ [entry] }, d', hrun, rfl, rfl⟩

theorem runs_ask {question : Tree → Except DiskError α} {r : Except DiskError α}
    (h : Runs (ask question) t r t') : r = question t ∧ t' = t := by
  obtain ⟨d, rfl, h⟩ := runs_get h
  split at h
  · next ha => exact ha ▸ runs_pure h
  · next he => exact he ▸ runs_throw h

theorem runs_ask_bind {question : Tree → Except DiskError α} {k : α → Work β}
    {r : Except DiskError β}     (h : Runs (ask question >>= k) t r t') :
    (∃ a, question t = .ok a ∧ Runs (k a) t r t') ∨
      ∃ e, question t = .error e ∧ r = .error e ∧ t' = t := by
  obtain ⟨a, t₁, hask, hk⟩ | ⟨e, hr, hask⟩ := runs_bind h
  · obtain ⟨ha, rfl⟩ := runs_ask hask
    exact .inl ⟨a, ha.symm, hk⟩
  · obtain ⟨he, rfl⟩ := runs_ask hask
    exact .inr ⟨e, he.symm, hr, rfl⟩

theorem runs_meet {path : String} {k : Unit → Work α} {r : Except DiskError α}
    (h : Runs (meet path >>= k) t r t') : Runs (k ()) t r t' ∨ ∃ e, r = .error e ∧ t' = t := by
  have hsame (r : Except DiskError Unit) (t₁ : Tree) (hmeet : Runs (meet path) t r t₁) : t₁ = t := by
    obtain ⟨⟨tree, faults, log⟩, d', hrun, rfl, rfl⟩ := hmeet
    match faults with
    | [] => cases hrun; rfl
    | none :: _ => cases hrun; rfl
    | some _ :: _ => cases hrun; rfl
  obtain ⟨_, t₁, hmeet, hk⟩ | ⟨e, hr, hmeet⟩ := runs_bind h
  · obtain rfl := hsame _ _ hmeet
    exact .inl hk
  · exact .inr ⟨e, hr, hsame _ _ hmeet⟩

end TableLoom.Storage.Disk
