import Mathlib.Data.List.DropRight
import TableLoom.Proofs.Text.Name

/-!
Texts cut at a character, and their ends. Parts that do not hold the character are got back from the text
that they are joined to.
-/

namespace TableLoom.Text

theorem splitChars_eq_splitOn (sep : Char) (cs : List Char) : splitChars sep cs = cs.splitOn sep := by
  induction cs with
  | nil => rw [splitChars, List.splitOn_nil]
  | cons c rest ih =>
      rw [splitChars, List.splitOn_cons_eq_if_modifyHead, ih]
      cases hsplit : rest.splitOn sep with
      | nil => exact absurd hsplit (List.splitOn_ne_nil _ _)
      | cons part parts => rfl

theorem notMem_splitChars (sep : Char) (cs : List Char) : ∀ part ∈ splitChars sep cs, sep ∉ part := by
  induction cs with
  | nil => simp [splitChars]
  | cons c rest ih =>
      rw [splitChars]
      split
      · exact List.forall_mem_cons.mpr ⟨List.not_mem_nil, ih⟩
      · next hc =>
          have hc : sep ≠ c := fun hsame => hc (beq_iff_eq.mpr hsame.symm)
          cases hsplit : splitChars sep rest with
          | nil => simp [hc]
          | cons part parts =>
              rw [hsplit] at ih
              obtain ⟨hpart, hparts⟩ := List.forall_mem_cons.mp ih
              exact List.forall_mem_cons.mpr ⟨by simp [hc, hpart], hparts⟩

/-- The parts of a text do not hold the character that it was cut at. -/
theorem notMem_split (sep : Char) (s : String) : ∀ part ∈ split sep s, sep ∉ part.toList := by
  unfold split
  refine List.forall_mem_map.mpr fun cs hcs => ?_
  rw [String.toList_ofList]
  exact notMem_splitChars sep s.toList cs hcs

theorem split_append (sep : Char) (s t : String) :
    split sep (s ++ String.singleton sep ++ t) = split sep s ++ split sep t := by
  simp only [split, splitChars_eq_splitOn, String.toList_append, String.toList_singleton,
    List.append_assoc, List.singleton_append, List.splitOn_append_cons_self, List.map_append]

theorem split_join {sep : Char} {parts : List String} (apart : ∀ part ∈ parts, sep ∉ part.toList)
    (nonempty : parts ≠ []) : split sep (join (String.singleton sep) parts) = parts := by
  have hparts : ∀ cs ∈ parts.map String.toList, sep ∉ cs := List.forall_mem_map.mpr apart
  rw [split, splitChars_eq_splitOn, join, String.toList_intercalate, String.toList_singleton,
    List.splitOn_intercalate sep hparts (by simpa using nonempty), List.map_map]
  simp [Function.comp_def]

/-- Parts that are not empty are joined to a text that ends with a character of one of them. -/
theorem join_ends (sep : String) {parts : List String} (nonempty : parts ≠ [])
    (full : ∀ part ∈ parts, part ≠ "") :
    ∃ front c, join sep parts = front ++ String.singleton c ∧ ∃ part ∈ parts, c ∈ part.toList := by
  obtain ⟨init, last, hlast⟩ := (List.eq_nil_or_concat parts).resolve_left nonempty
  have hmem : last ∈ parts := by simp [hlast]
  obtain ⟨chars, c, hchars⟩ := (List.eq_nil_or_concat last.toList).resolve_left
    fun h => full last hmem (String.toList_inj.mp h)
  have hends : last = String.ofList chars ++ String.singleton c := by
    rw [← String.toList_inj]
    simp [hchars]
  have hc : c ∈ last.toList := by simp [hchars]
  rw [hlast, List.concat_eq_append]
  by_cases hinit : init = []
  · exact ⟨_, c, by rw [hinit]; exact hends, last, by simp, hc⟩
  · refine ⟨join sep init ++ sep ++ String.ofList chars, c, ?_, last, by simp, hc⟩
    have hjoined := String.intercalate_append_of_ne_nil (s := sep) hinit (List.cons_ne_nil last [])
    rw [join, hjoined, String.intercalate_singleton, hends, ← String.append_assoc]
    rfl

/-- What is dropped at the end of a text lies behind the last character that is kept. -/
theorem rdropWhile_append {p : Char → Bool} {c : Char} (hc : p c = false) (front back : List Char) :
    (front ++ [c] ++ back).rdropWhile p = front ++ [c] ++ back.rdropWhile p := by
  rw [List.rdropWhile, List.rdropWhile, List.reverse_append, List.dropWhile_append]
  split
  · next hnone =>
      rw [List.isEmpty_iff] at hnone
      simp [hnone, hc]
  · simp

theorem endsWith_iff {s tail : String} : endsWith s tail = true ↔ ∃ front, s = front ++ tail := by
  rw [endsWith, List.isSuffixOf_iff_suffix]
  constructor
  · rintro ⟨front, hfront⟩
    exact ⟨String.ofList front, String.toList_injective (by simp [hfront])⟩
  · rintro ⟨front, rfl⟩
    exact ⟨front.toList, by simp⟩

theorem endsWith_append (before tail : String) : endsWith (before ++ tail) tail = true :=
  endsWith_iff.mpr ⟨before, rfl⟩

end TableLoom.Text
