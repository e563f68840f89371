import Mathlib.Data.List.Forall2

/-!
Lists whose members are paired, and traversals that may fail. A traversal succeeds with the results of
the members in their order, and it does so when each member has a result.
-/

namespace TableLoom

section Paired

variable {α β γ : Type} {rel : α → β → Prop} {as : List α} {bs : List β}

theorem exists_left_of_paired {b : β} (h : List.Forall₂ rel as bs) (hb : b ∈ bs) :
    ∃ a ∈ as, rel a b := by
  induction h with
  | nil => simp at hb
  | cons head _ ih =>
      rcases List.mem_cons.mp hb with rfl | hb
      · exact ⟨_, List.mem_cons_self, head⟩
      · obtain ⟨a, ha, hrel⟩ := ih hb
        exact ⟨a, List.mem_cons_of_mem _ ha, hrel⟩

theorem exists_right_of_paired {a : α} (h : List.Forall₂ rel as bs) (ha : a ∈ as) :
    ∃ b ∈ bs, rel a b :=
  exists_left_of_paired h.flip ha

theorem map_eq_of_paired {f : α → γ} {g : β → γ} (h : List.Forall₂ rel as bs)
    (same : ∀ a b, rel a b → g b = f a) : bs.map g = as.map f := by
  induction h with
  | nil => rfl
  | cons head _ ih => rw [List.map_cons, List.map_cons, ih, same _ _ head]

end Paired

section Traversal

variable {ε α β γ : Type} {f g : α → Except ε β} {as : List α} {bs : List β}

theorem eq_ok_of_toOption {read : Except ε α} {a : α} (h : read.toOption = some a) : read = .ok a := by
  cases read with
  | error => cases h
  | ok b => exact congrArg _ (Option.some.inj h)

theorem mapM_eq_ok : as.mapM f = .ok bs ↔ List.Forall₂ (fun a b => f a = .ok b) as bs := by
  induction as generalizing bs with
  | nil => cases bs <;> simp [pure, Except.pure]
  | cons a rest ih =>
      rw [List.mapM_cons]
      cases ha : f a with
      | error e => cases bs <;> simp [bind, Except.bind, ha]
      | ok b =>
          cases hrest : rest.mapM f with
          | error e => cases bs <;> simp [bind, Except.bind, ← ih, hrest]
          | ok bs' => cases bs <;> simp [bind, Except.bind, pure, Except.pure, ← ih, hrest, ha]

theorem exists_left_of_mapM {b : β} (h : as.mapM f = .ok bs) (hb : b ∈ bs) :
    ∃ a ∈ as, f a = .ok b := by
  obtain ⟨a, ha, hok⟩ := exists_left_of_paired (mapM_eq_ok.mp h) hb
  exact ⟨a, ha, hok⟩

theorem exists_right_of_mapM {a : α} (h : as.mapM f = .ok bs) (ha : a ∈ as) :
    ∃ b ∈ bs, f a = .ok b := by
  obtain ⟨b, hb, hok⟩ := exists_right_of_paired (mapM_eq_ok.mp h) ha
  exact ⟨b, hb, hok⟩

/-- Members that each have a result of some kind make the traversal succeed with such results. -/
theorem exists_mapM_paired {rel : α → β → Prop} (h : ∀ a ∈ as, ∃ b, f a = .ok b ∧ rel a b) :
    ∃ bs, as.mapM f = .ok bs ∧ List.Forall₂ rel as bs := by
  induction as with
  | nil => exact ⟨[], rfl, .nil⟩
  | cons a rest ih =>
      obtain ⟨⟨b, hb, hrel⟩, hrest⟩ := List.forall_mem_cons.mp h
      obtain ⟨bs, hbs, hall⟩ := ih hrest
      exact ⟨b :: bs, mapM_eq_ok.mpr (.cons hb (mapM_eq_ok.mp hbs)), .cons hrel hall⟩

theorem exists_mapM_eq_ok : (∃ bs, as.mapM f = .ok bs) ↔ ∀ a ∈ as, ∃ b, f a = .ok b := by
  constructor
  · rintro ⟨bs, h⟩ a ha
    obtain ⟨b, _, hb⟩ := exists_right_of_mapM h ha
    exact ⟨b, hb⟩
  · intro h
    obtain ⟨bs, hbs, -⟩ := exists_mapM_paired
      fun a ha => (h a ha).imp fun _ hb => ⟨hb, trivial⟩
    exact ⟨bs, hbs⟩

/-- What is kept of the results is what the kept items result in. -/
theorem mapM_filter {keep : α → Bool} {keep' : β → Bool} (h : as.mapM f = .ok bs)
    (agree : ∀ a ∈ as, ∀ b, f a = .ok b → keep a = keep' b ∧ (keep a = true → g a = .ok b)) :
    (as.filter keep).mapM g = .ok (bs.filter keep') := by
  rw [mapM_eq_ok] at h ⊢
  induction h with
  | nil => exact .nil
  | @cons a b as bs hab _ ih =>
      obtain ⟨hfirst, hrest⟩ := List.forall_mem_cons.mp agree
      obtain ⟨hkeep, hsame⟩ := hfirst b hab
      have hkept := ih hrest
      rw [List.filter_cons, List.filter_cons, ← hkeep]
      split
      · next htrue => exact .cons (hsame htrue) hkept
      · exact hkept

theorem mapM_of_labelled {label : α → γ} {ys : List (γ × β)}
    (h : (as.mapM fun a => return (label a, ← f a)) = .ok ys) : as.mapM f = .ok (ys.map (·.2)) := by
  rw [mapM_eq_ok] at h ⊢
  rw [List.forall₂_map_right_iff]
  refine h.imp fun a y hy => ?_
  cases ha : f a with
  | error e => simp [ha, bind, Except.bind] at hy
  | ok b =>
      rw [ha] at hy
      cases hy
      rfl

theorem mapM_eq_some {f : α → Option β} {g : α → β} (h : ∀ a ∈ as, f a = some (g a)) :
    as.mapM f = some (as.map g) := by
  induction as with
  | nil => rfl
  | cons a rest ih =>
      obtain ⟨ha, hrest⟩ := List.forall_mem_cons.mp h
      rw [List.mapM_cons, ha, ih hrest]
      rfl

end Traversal

end TableLoom
