import TableLoom.Text.Identifier
import TableLoom.Text.Line

/-!
The characters of names, and texts joined one by one.
-/

namespace TableLoom.Text

theorem toNat_of_isAlpha {c : Char} (h : c.isAlpha = true) :
    (65 ≤ c.toNat ∧ c.toNat ≤ 90) ∨ (97 ≤ c.toNat ∧ c.toNat ≤ 122) := by
  rcases Bool.or_eq_true_iff.mp h with hupper | hlower
  · exact .inl (of_decide_eq_true hupper)
  · obtain ⟨hleft, hright⟩ := Bool.and_eq_true_iff.mp hlower
    exact .inr ⟨of_decide_eq_true hleft, of_decide_eq_true hright⟩

theorem toNat_of_isDigit {c : Char} (h : c.isDigit = true) : 48 ≤ c.toNat ∧ c.toNat ≤ 57 :=
  Char.isDigit_iff_toNat.mp h

theorem not_isDigit_of_isNameStart {c : Char} (h : isNameStart c = true) : c.isDigit = false := by
  rw [isNameStart, Bool.or_eq_true, beq_iff_eq] at h
  rw [Bool.eq_false_iff]
  rintro hdigit
  rcases h with h | rfl
  · have halpha := toNat_of_isAlpha h
    have hbounds := toNat_of_isDigit hdigit
    omega
  · exact absurd hdigit (by decide)

theorem isNameRest_of_isNameStart {c : Char} (h : isNameStart c = true) : isNameRest c = true := by
  rw [isNameStart, Bool.or_eq_true] at h
  rw [isNameRest, Char.isAlphanum, Bool.or_eq_true, Bool.or_eq_true]
  exact h.imp .inl id

theorem isNameRest_of_isNameChars {cs : List Char} (h : isNameChars cs = true) :
    ∀ c ∈ cs, isNameRest c = true := by
  cases cs with
  | nil => cases h
  | cons c cs =>
      rw [isNameChars, Bool.and_eq_true] at h
      exact List.forall_mem_cons.mpr ⟨isNameRest_of_isNameStart h.1, List.all_eq_true.mp h.2⟩

theorem isNameStart_of_isIdentifier {s : String} (h : isIdentifier s = true) :
    ∃ c rest, s.toList = c :: rest ∧ isNameStart c = true := by
  unfold isIdentifier dropLineEnd at h
  cases hchars : s.toList with
  | nil => rw [hchars] at h; cases h
  | cons c rest =>
      refine ⟨c, rest, rfl, ?_⟩
      rw [hchars] at h
      split at h
      · cases rest with
        | nil => cases h
        | cons d rest => exact (Bool.and_eq_true_iff.mp h).1
      · exact (Bool.and_eq_true_iff.mp h).1

theorem toNat_of_isNameRest {c : Char} (h : isNameRest c = true) : c.toNat < 128 := by
  rw [isNameRest, Char.isAlphanum, Bool.or_eq_true, Bool.or_eq_true, beq_iff_eq] at h
  rcases h with (halpha | hdigit) | rfl
  · have hbounds := toNat_of_isAlpha halpha
    omega
  · have hbounds := toNat_of_isDigit hdigit
    omega
  · decide

theorem join_cons (sep s t : String) (rest : List String) :
    join sep (s :: t :: rest) = s ++ sep ++ join sep (t :: rest) :=
  String.intercalate_cons_cons

end TableLoom.Text
