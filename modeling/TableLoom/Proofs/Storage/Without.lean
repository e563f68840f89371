import Mathlib.Data.List.Sort
import Mathlib.Data.String.Basic
import TableLoom.Proofs.Storage.Way

/-!
A tree without some of its files. Whatever the way to a place is, it leads there without them, and all
other files hold what they held.
-/

namespace TableLoom.Storage

namespace Tree

def without (t : Tree) (gone : List Place) : Tree :=
  { nodes := t.nodes.filter fun x => !gone.contains x.1 }

variable {t : Tree} {gone : List Place}

theorem find?_without {p : Place} (h : p ∉ gone) : (t.without gone).find? p = t.find? p := by
  unfold find?
  have hlookup : (t.without gone).nodes.lookup p = t.nodes.lookup p := by
    unfold without
    induction t.nodes with
    | nil => rfl
    | cons x rest ih =>
        obtain ⟨q, n⟩ := x
        by_cases hq : p = q
        · subst hq
          rw [List.filter_cons_of_pos (by simpa using h)]
          simp
        · rw [List.lookup_cons, beq_false_of_ne hq, List.filter_cons]
          split
          · rw [List.lookup_cons, beq_false_of_ne hq]
            exact ih
          · exact ih
  rw [hlookup]

theorem isFile_without {p : Place} (h : p ∉ gone) : (t.without gone).isFile p = t.isFile p := by
  unfold isFile
  rw [find?_without h]

section

variable (files : ∀ p ∈ gone, t.isFile p = true)

include files

theorem notMem_of_directory {p : Place} (h : t.find? p = some .directory) : p ∉ gone := by
  intro hp
  have hfile := files p hp
  simp [isFile, h] at hfile

/-- The way through a tree does not lead over its files. -/
theorem covers_without : (t.without gone).Covers t := by
  intro p h
  rw [find?_without (notMem_of_directory files h), h]

theorem showsDirectory_without {p : Path} (h : t.showsDirectory p = .ok true) :
    (t.without gone).showsDirectory p = .ok true := by
  rw [showsDirectory_iff] at h ⊢
  exact (covers_without files).stands h

/-- A file that stays holds what it held. -/
theorem readBytes_without {p : Path} {bytes : ByteArray} (h : t.readBytes p = .ok bytes)
    (stays : p.place ∉ gone) : (t.without gone).readBytes p = .ok bytes := by
  unfold readBytes at h ⊢
  cases hresolve : t.resolve p with
  | error trouble => simp [hresolve, Except.map] at h
  | ok place =>
      obtain rfl := place_of_resolve hresolve
      rw [(covers_without files).resolve hresolve]
      rw [hresolve] at h
      simp only [Except.map, find?_without stays] at h ⊢
      exact h

end

theorem pairwise_mergeSort_by {α : Type} (f : α → String) (xs : List α) :
    (xs.mergeSort fun a b => f a ≤ f b).Pairwise fun a b => f a ≤ f b := by
  have h := @List.pairwise_mergeSort α (fun a b => decide (f a ≤ f b))
    (fun a b c => by simpa using le_trans) (fun a b => by simpa using le_total (f a) (f b)) xs
  simpa using h

theorem filter_mergeSort (keep : String → Bool) (xs : List String) :
    (xs.filter keep).mergeSort (· ≤ ·) = (xs.mergeSort (· ≤ ·)).filter keep := by
  have hsorted (ys : List String) : (ys.mergeSort (· ≤ ·)).Pairwise (· ≤ ·) :=
    pairwise_mergeSort_by (fun s => s) ys
  refine List.Perm.eq_of_pairwise' (hsorted _) ((hsorted xs).filter keep) ?_
  exact (List.mergeSort_perm _ _).trans ((List.mergeSort_perm xs _).filter keep).symm

def places (t : Tree) : List Place :=
  t.nodes.map (·.1)

/-- The name of a place that is directly in a directory. -/
def nameIn (p q : Place) : Option String :=
  if q.dropLast == p && !q.isEmpty then q.getLast? else none

theorem nameIn_eq_some {p q : Place} {name : String} :
    nameIn p q = some name ↔ q = p ++ [name] := by
  unfold nameIn
  constructor
  · intro h
    obtain ⟨hin, hlast⟩ := Option.ite_none_right_eq_some.mp h
    rw [Bool.and_eq_true, beq_iff_eq] at hin
    rw [← hin.1]
    exact (List.dropLast_append_getLast? name hlast).symm
  · rintro rfl
    simp

theorem names_eq (t : Tree) (p : Place) :
    t.names p = (t.places.filterMap (nameIn p)).mergeSort (· ≤ ·) := by
  rw [places, List.filterMap_map]
  rfl

theorem names_without (t : Tree) (gone : List Place) (p : Place) :
    (t.without gone).names p = (t.names p).filter fun name => !gone.contains (p ++ [name]) := by
  have hplaces : (t.without gone).places = t.places.filter fun q => !gone.contains q := by
    rw [places, places, List.filter_map]
    rfl
  rw [names_eq, names_eq, ← filter_mergeSort, hplaces, List.filterMap_filter,
    List.filter_filterMap]
  apply congrArg (List.mergeSort · _)
  apply congrArg (List.filterMap · t.places)
  funext q
  cases hq : nameIn p q with
  | none => simp
  | some name =>
      rw [nameIn_eq_some.mp hq, Option.filter_some]

theorem mem_places {t : Tree} {p : Place} (h : t.isFile p = true) : p ∈ t.places := by
  obtain ⟨b, hfile⟩ : ∃ b, t.find? p = some (.file b) := by
    unfold isFile at h
    split at h
    · next b hfind => exact ⟨b, hfind⟩
    · cases h
  unfold find? at hfile
  split at hfile
  · cases hfile
  · obtain ⟨before, after, hnodes, _⟩ := List.lookup_eq_some_iff.mp hfile
    rw [places, hnodes]
    simp

theorem mem_names {t : Tree} {p : Place} {name : String} (h : t.isFile (p ++ [name]) = true) :
    name ∈ t.names p := by
  rw [names_eq, List.mem_mergeSort, List.mem_filterMap]
  exact ⟨p ++ [name], mem_places h, nameIn_eq_some.mpr rfl⟩

/-- A tree as a disk holds it: one node at each place, and no slash in a name. -/
structure Proper (t : Tree) : Prop where
  distinct : t.places.Nodup
  plain : ∀ p ∈ t.places, ∀ name ∈ p.getLast?, '/' ∉ name.toList

theorem nodup_names {t : Tree} (proper : t.Proper) (p : Place) : (t.names p).Nodup := by
  rw [names_eq, (List.mergeSort_perm _ _).nodup_iff]
  refine proper.distinct.filterMap fun q q' name hq hq' => ?_
  rw [nameIn_eq_some.mp hq, nameIn_eq_some.mp hq']

end Tree

end TableLoom.Storage
