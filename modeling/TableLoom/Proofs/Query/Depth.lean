import TableLoom.Proofs.Query.Embedding
import TableLoom.Proofs.Query.Outcome

/-!
How far embedded queries are followed. With more fuel a query is written as before unless the fuel had
run out, and as much fuel as there are queries to go through is enough: more of it changes nothing.
-/

namespace TableLoom.Query

/-- A reading that ran out of fuel, or is no different from another one. -/
def Approaches {α : Type} (x y : Except Fault α) : Prop :=
  x = .error .endless ∨ x = y

namespace Approaches

variable {α β : Type} {x y : Except Fault α}

theorem refl (x : Except Fault α) : Approaches x x :=
  .inr rfl

theorem antisymm (h : Approaches x y) (h' : Approaches y x) : x = y := by
  rcases h with hx | hx
  · rcases h' with hy | hy
    · rw [hx, hy]
    · exact hy.symm
  · exact hx

theorem trans {z : Except Fault α} (h : Approaches x y) (h' : Approaches y z) : Approaches x z := by
  rcases h with hx | rfl
  · exact .inl hx
  · exact h'

theorem ok {a : α} (h : Approaches x y) (hx : x = .ok a) : y = .ok a := by
  rcases h with hy | rfl
  · rw [hx] at hy
    cases hy
  · exact hx

theorem bind (h : Approaches x y) {f g : α → Except Fault β} (next : ∀ a, Approaches (f a) (g a)) :
    Approaches (x >>= f) (y >>= g) := by
  rcases h with rfl | rfl
  · exact .inl rfl
  · cases x with
    | error e => exact refl _
    | ok a => exact next a

theorem map (h : Approaches x y) (f : α → β) : Approaches (x.map f) (y.map f) := by
  rcases h with rfl | rfl
  · exact .inl rfl
  · exact refl _

theorem mapM {xs : List α} {f g : α → Except Fault β} (h : ∀ a ∈ xs, Approaches (f a) (g a)) :
    Approaches (xs.mapM f) (xs.mapM g) := by
  induction xs with
  | nil => exact refl _
  | cons a xs ih =>
      rw [List.mapM_cons, List.mapM_cons]
      have hrest := ih fun c hc => h c (List.mem_cons_of_mem a hc)
      exact (h a List.mem_cons_self).bind fun _ => hrest.bind fun _ => refl _

end Approaches

variable {write write' : Nat → Except Fault (List Piece)}

theorem expand_approaches {p : Phrase}
    (h : ∀ id, .query id ∈ p → Approaches (write id) (write' id)) :
    Approaches (expand write p) (expand write' p) := by
  induction p with
  | nil => exact .refl _
  | cons part p ih =>
      have hrest := ih fun id hid => h id (List.mem_cons_of_mem part hid)
      cases part with
      | text s => exact hrest.bind fun _ => .refl _
      | slot v => exact hrest.bind fun _ => .refl _
      | query id => exact (h id List.mem_cons_self).bind fun _ => hrest.bind fun _ => .refl _
      | unwritable => exact .refl _

namespace Builder

variable {b : Builder} (h : ∀ id ∈ b.clauses.embedded, Approaches (write id) (write' id))

include h

theorem item_approaches {x : Item} (hx : b.clauses.Has x) {p : Phrase} (hp : x.phrase? = some p) :
    Approaches (expand write p) (expand write' p) :=
  expand_approaches fun id hid => h id (mem_embedded hx hp hid)

theorem head_approaches (shape : Shape) : Approaches (b.head write shape) (b.head write' shape) := by
  have hselects : Approaches (b.clauses.selects.mapM (expand write))
      (b.clauses.selects.mapM (expand write')) :=
    .mapM fun p hp => item_approaches h (x := .select p) hp rfl
  unfold head
  simp only
  split
  · exact .refl _
  · split
    · exact .refl _
    · exact hselects.bind fun _ => .refl _

theorem includes_approaches (shape : Shape) :
    Approaches (b.includes write shape) (b.includes write' shape) := by
  unfold includes
  split
  · exact .refl _
  · refine .mapM fun (r, o) hx => expand_approaches fun id hid => ?_
    rcases mem_lateral hid with ⟨s, hs⟩ | ⟨p, hp, hmem⟩
    · cases hs
    · exact h id (mem_embedded (x := .include_ r o) hx hp hmem)

theorem conditions_approaches : Approaches (b.conditions write) (b.conditions write') := by
  refine Approaches.bind (.mapM fun c hc => ?_) fun _ => .refl _
  exact (item_approaches h (x := .condition c) hc rfl).bind fun _ => .refl _

theorem grouping_approaches (shape : Shape) :
    Approaches (b.grouping write shape) (b.grouping write' shape) := by
  have hhavings : Approaches (b.clauses.havings.mapM (expand write))
      (b.clauses.havings.mapM (expand write')) :=
    .mapM fun p hp => item_approaches h (x := .having p) hp rfl
  unfold grouping
  split
  · exact .refl _
  · refine (Approaches.refl _).bind fun groups => ?_
    split
    · exact .refl _
    · exact hhavings.bind fun _ => .refl _

theorem pieces_approaches (shape : Shape) :
    Approaches (b.pieces write shape) (b.pieces write' shape) := by
  unfold pieces sections
  refine Approaches.map ?_ _
  refine (head_approaches h shape).bind fun _ => ?_
  refine (includes_approaches h shape).bind fun _ => ?_
  refine (conditions_approaches h).bind fun _ => ?_
  exact (grouping_approaches h shape).bind fun _ => .refl _

theorem deletion_approaches : Approaches (b.deletion write) (b.deletion write') :=
  (conditions_approaches h).bind fun _ => .refl _

omit h

/-- A statement depends on how the queries are written that it embeds, and on no others. -/
theorem pieces_congr (same : ∀ id ∈ b.clauses.embedded, write id = write' id) (shape : Shape) :
    b.pieces write shape = b.pieces write' shape :=
  (pieces_approaches (fun id hid => .inr (same id hid)) shape).antisymm
    (pieces_approaches (fun id hid => .inr (same id hid).symm) shape)

theorem deletion_congr (same : ∀ id ∈ b.clauses.embedded, write id = write' id) :
    b.deletion write = b.deletion write' :=
  (deletion_approaches fun id hid => .inr (same id hid)).antisymm
    (deletion_approaches fun id hid => .inr (same id hid).symm)

end Builder

namespace Shelf

variable {s : Shelf}

theorem write_succ (s : Shelf) (fuel id : Nat) : Approaches (s.write fuel id) (s.write (fuel + 1) id) := by
  induction fuel generalizing id with
  | zero => exact .inl rfl
  | succ fuel ih =>
      rw [write, write]
      cases s.get? id with
      | none => exact .refl _
      | some b => exact Builder.pieces_approaches (fun j _ => ih j) {}

theorem write_mono (s : Shelf) {fuel more : Nat} (le : fuel ≤ more) (id : Nat) :
    Approaches (s.write fuel id) (s.write more id) := by
  induction le with
  | refl => exact .refl _
  | step _ ih => exact ih.trans (s.write_succ _ id)

/-- The fuel is just short of what writing a query takes. -/
def Short (s : Shelf) (fuel id : Nat) : Prop :=
  s.write fuel id ≠ s.write (fuel + 1) id

theorem Short.unique {fuel more id : Nat} (h : s.Short fuel id) (h' : s.Short more id) :
    fuel = more := by
  have hless : ∀ {k l : Nat}, s.Short k id → s.Short l id → ¬ k < l := by
    intro k l hk hl hkl
    -- What runs out with `l` ran out with all less, so at `k` nothing changes.
    have hend : s.write l id = .error .endless := (s.write_succ l id).resolve_right hl
    rcases s.write_mono (Nat.succ_le_of_lt hkl) id with hnext | hnext
    · rcases s.write_succ k id with hk' | hk'
      · exact hk (hk'.trans hnext.symm)
      · exact hk hk'
    · rcases s.write_succ k id with hk' | hk'
      · exact hk (by rw [hk', hnext, hend])
      · exact hk hk'
  have hle := hless h h'
  have hge := hless h' h
  omega

/-- Queries among which all stay that they embed. -/
structure Enclosed (s : Shelf) (among : Nat → Prop) : Prop where
  held : ∀ i, among i → i < s.builders.length
  closed : ∀ i j, among i → s.Embeds i j → among j

/-- When fuel is just short, it has gone through as many different queries. -/
theorem Short.path {among : Nat → Prop} (enclosed : s.Enclosed among) {fuel id : Nat}
    (hid : among id) (h : s.Short fuel id) :
    ∃ path : List Nat, path.length = fuel + 1 ∧ path.Nodup ∧
      ∀ i ∈ path, among i ∧ ∃ k ≤ fuel, s.Short k i := by
  induction fuel generalizing id with
  | zero =>
      refine ⟨[id], rfl, List.pairwise_singleton _ id, List.forall_mem_singleton.mpr ⟨hid, 0, ?_⟩⟩
      exact ⟨Nat.le_refl 0, h⟩
  | succ fuel ih =>
      obtain ⟨b, hget⟩ : ∃ b, s.get? id = some b :=
        ⟨_, List.getElem?_eq_getElem (enclosed.held id hid)⟩
      -- If none of the embedded queries were short, more fuel would change nothing here either.
      obtain ⟨j, hj, hshort⟩ : ∃ j ∈ b.clauses.embedded, s.Short fuel j := by
        by_contra hnone
        refine h ?_
        rw [write, write, hget]
        refine Builder.pieces_congr (fun j hj => ?_) {}
        by_contra hne
        exact hnone ⟨j, hj, hne⟩
      obtain ⟨path, hlength, hnodup, hpath⟩ := ih (enclosed.closed id j hid ⟨b, hget, hj⟩) hshort
      -- On the path, `id` would be short of two different amounts.
      have hfresh : id ∉ path := by
        intro hmem
        obtain ⟨_, k, hk, hshort'⟩ := hpath id hmem
        have := h.unique hshort'
        omega
      refine ⟨id :: path, by rw [List.length_cons, hlength], List.nodup_cons.mpr ⟨hfresh, hnodup⟩, ?_⟩
      refine List.forall_mem_cons.mpr ⟨⟨hid, fuel + 1, Nat.le_refl _, h⟩, fun i hi => ?_⟩
      obtain ⟨hamong, k, hk, hshort'⟩ := hpath i hi
      exact ⟨hamong, k, by omega, hshort'⟩

/-- As much fuel as there are queries is enough. -/
theorem write_settled {among : Nat → Prop} (enclosed : s.Enclosed among) {fuel id : Nat}
    (hid : among id) (enough : s.builders.length ≤ fuel) :
    s.write fuel id = s.write (fuel + 1) id := by
  by_contra h
  obtain ⟨path, hlength, hnodup, hpath⟩ := Short.path enclosed hid h
  have hle := length_le_of_nodup hnodup fun i hi => enclosed.held i (hpath i hi).1
  omega

/-- What is written depends on the queries among which all stay that they embed. -/
theorem write_among {t : Shelf} {among : Nat → Prop} (enclosed : s.Enclosed among)
    (same : ∀ i, among i → s.get? i = t.get? i) (fuel : Nat) {id : Nat} (hid : among id) :
    s.write fuel id = t.write fuel id := by
  induction fuel generalizing id with
  | zero => rfl
  | succ fuel ih =>
      rw [write, write, ← same id hid]
      cases hget : s.get? id with
      | none => rfl
      | some b => exact Builder.pieces_congr (fun j hj => ih (enclosed.closed id j hid ⟨b, hget, hj⟩)) {}

/-- The stage of a builder does not show in what is written. -/
theorem write_set {id : Nat} {b b' : Builder} (hget : s.get? id = some b)
    (binding : b'.binding = b.binding) (clauses : b'.clauses = b.clauses) (fuel : Nat) :
    (s.set id b').write fuel = s.write fuel := by
  induction fuel with
  | zero => rfl
  | succ fuel ih =>
      funext j
      rw [write, write, ih]
      by_cases hj : id = j
      · subst hj
        rw [get_set hget b', hget]
        simp only [Builder.pieces, Builder.sections, Builder.head, Builder.includes, Builder.conditions,
          Builder.guard?, Builder.grouping, Builder.ordering, Builder.paging, binding, clauses]
      · rw [get_set_ne hj]

theorem embedded_set {id : Nat} {b b' : Builder} (hget : s.get? id = some b)
    (binding : b'.binding = b.binding) (clauses : b'.clauses = b.clauses) :
    (s.set id b').embedded = s.embedded := by
  have hlength : (s.set id b').builders.length = s.builders.length := List.length_set
  unfold embedded
  rw [hlength, write_set hget binding clauses]

end Shelf

end TableLoom.Query
