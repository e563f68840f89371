import TableLoom.Proofs.Text.Split
import TableLoom.Storage.Tree

/-!
Ways through a tree. A path that is followed to its end leads to the place that it names, and it leads
there in every tree that has the same directories.
-/

namespace TableLoom.Storage

namespace Path

/-- A name that leads one step on. -/
structure IsName (name : String) : Prop where
  slash : '/' ∉ name.toList
  nonempty : name ≠ ""
  here : name ≠ "."
  back : name ≠ ".."

theorem ofText_name {name : String} (h : IsName name) : ofText name = ⟨false, [name]⟩ := by
  have hhead : (name.toList.head? == some '/') = false := by
    rw [beq_eq_false_iff_ne]
    exact fun heq => h.slash (List.mem_of_mem_head? heq)
  have hsplit : Text.split '/' name = [name] := by
    rw [Text.split, Text.splitChars_eq_splitOn, List.splitOn_eq_singleton h.slash, List.map_singleton,
      String.ofList_toList]
  simp [ofText, hhead, hsplit, h.nonempty, h.here]

theorem child_name (p : Path) {name : String} (h : IsName name) :
    p.child name = { p with parts := p.parts ++ [name] } := by
  rw [child, ofText_name h]
  rfl

theorem follow_name {name : String} (h : IsName name) (here : Place) : follow here name = here ++ [name] := by
  rw [follow, if_pos (by simpa using h.back)]

theorem place_child (p : Path) {name : String} (h : IsName name) :
    (p.child name).place = p.place ++ [name] := by
  rw [child_name p h, place, List.foldl_append]
  exact follow_name h p.place

theorem slash_notMem_ofText (s : String) : ∀ part ∈ (ofText s).parts, '/' ∉ part.toList :=
  fun part hpart => Text.notMem_split '/' s part (List.mem_filter.mp hpart).1

/-- What a place is made of: names of the path, steps back, and the root. -/
theorem mem_place {p : Path} {name : String} (h : name ∈ p.place) :
    name ∈ p.parts ∨ name = ".." ∨ name = "/" := by
  have hfollow (here : Place) (step : String) (hmem : name ∈ follow here step) :
      name ∈ here ∨ name = step ∨ name = ".." := by
    unfold follow at hmem
    split at hmem
    · rw [List.mem_append, List.mem_singleton] at hmem
      exact hmem.imp_right .inl
    split at hmem
    · rw [List.mem_append, List.mem_singleton] at hmem
      exact hmem.imp_right .inr
    · rw [List.mem_append, List.mem_singleton] at hmem
      exact hmem.imp_right .inr
    · exact .inl hmem
    · exact .inl ((List.dropLast_sublist here).mem hmem)
  have hwalk (here : Place) (steps : List String) (hmem : name ∈ steps.foldl follow here) :
      name ∈ here ∨ name ∈ steps ∨ name = ".." := by
    induction steps generalizing here with
    | nil => exact .inl hmem
    | cons step rest ih =>
        obtain hmem | hmem | hmem := ih _ hmem
        · obtain hmem | hmem | hmem := hfollow _ _ hmem
          · exact .inl hmem
          · exact .inr (.inl (hmem ▸ List.mem_cons_self))
          · exact .inr (.inr hmem)
        · exact .inr (.inl (List.mem_cons_of_mem _ hmem))
        · exact .inr (.inr hmem)
  obtain hmem | hmem | hmem := hwalk _ _ h
  · unfold start at hmem
    split at hmem
    · exact .inr (.inr (List.mem_singleton.mp hmem))
    · cases hmem
  · exact .inl hmem
  · exact .inr (.inl hmem)

theorem name_child (p : Path) {name : String} (h : IsName name) : (p.child name).name = name := by
  rw [child_name p h, Path.name, List.getLast?_concat, Option.getD_some]

end Path

namespace Tree

variable {t : Tree}

theorem place_of_walk {here place : Place} {steps : List String} (h : t.walk here steps = .ok place) :
    place = steps.foldl Path.follow here := by
  induction steps generalizing here with
  | nil => exact (Except.ok.inj h).symm
  | cons step rest ih =>
      rw [walk] at h
      split at h
      · cases h
      · cases h
      · split at h
        · cases h
        · exact ih h

theorem place_of_resolve {p : Path} {place : Place} (h : t.resolve p = .ok place) :
    place = p.place := by
  unfold resolve at h
  split at h
  · cases h
  · split at h
    · cases h
    · exact place_of_walk h

/-- Every directory of a tree is one in the other tree as well. -/
def Covers (t' t : Tree) : Prop :=
  ∀ p, t.find? p = some .directory → t'.find? p = some .directory

theorem Covers.walk {t' : Tree} (covers : t'.Covers t) {here place : Place} {steps : List String}
    (h : t.walk here steps = .ok place) : t'.walk here steps = .ok place := by
  induction steps generalizing here with
  | nil => exact h
  | cons step rest ih =>
      rw [Tree.walk] at h ⊢
      cases hfind : t.find? here with
      | none => simp [hfind] at h
      | some n =>
          cases n with
          | file b => simp [hfind] at h
          | directory =>
              rw [covers here hfind]
              simp only [hfind] at h
              split at h
              · cases h
              · next hlong => simpa [hlong] using ih h

theorem Covers.resolve {t' : Tree} (covers : t'.Covers t) {p : Path} {place : Place}
    (h : t.resolve p = .ok place) : t'.resolve p = .ok place := by
  unfold Tree.resolve at h ⊢
  split at h
  · cases h
  · next hnull =>
      split at h
      · cases h
      · next hlong =>
          rw [if_neg hnull, if_neg hlong]
          exact covers.walk h

/-- A path leads to a directory. -/
def Stands (t : Tree) (p : Path) : Prop :=
  t.resolve p = .ok p.place ∧ t.find? p.place = some .directory

theorem Covers.stands {t' : Tree} (covers : t'.Covers t) {p : Path} (h : t.Stands p) : t'.Stands p :=
  ⟨covers.resolve h.1, covers _ h.2⟩

theorem showsDirectory_iff {p : Path} : t.showsDirectory p = .ok true ↔ t.Stands p := by
  unfold showsDirectory look Stands
  cases hresolve : t.resolve p with
  | error trouble => cases trouble <;> simp [Except.map]
  | ok place =>
      obtain rfl := place_of_resolve hresolve
      cases hfind : t.find? p.place with
      | none => simp [Except.map, hfind]
      | some n => cases n <;> simp [Except.map, hfind]

end Tree

end TableLoom.Storage
