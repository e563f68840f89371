import Mathlib.Data.List.TakeWhile
import TableLoom.Naming
import TableLoom.Proofs.Text.Name
import TableLoom.Text.Quoted

/-!
Texts of whole characters, which can be written to a file. Joining and quoting keep texts whole; names
are whole since they consist of ASCII characters, and so do the names that are made from them.
-/

namespace TableLoom

namespace Text

/-- Every character of the text is one of these. -/
def Each (p : Char → Prop) (s : String) : Prop :=
  ∀ c ∈ s.toList, p c

section

variable {p : Char → Prop}

@[simp] theorem each_append {s t : String} : Each p (s ++ t) ↔ Each p s ∧ Each p t := by
  simp [Each, or_imp, forall_and]

@[simp] theorem each_toString {s : String} : Each p (toString s) ↔ Each p s := Iff.rfl

theorem each_join {sep : String} {parts : List String} (hsep : Each p sep)
    (h : ∀ part ∈ parts, Each p part) : Each p (join sep parts) := by
  induction parts with
  | nil => simp [Each, join]
  | cons part rest ih =>
      obtain ⟨hpart, hrest⟩ := List.forall_mem_cons.mp h
      cases rest with
      | nil => exact hpart
      | cons next rest =>
          rw [join_cons, each_append, each_append]
          exact ⟨⟨hpart, hsep⟩, ih hrest⟩

theorem each_of_join {sep : String} {parts : List String} (h : Each p (join sep parts)) :
    ∀ part ∈ parts, Each p part := by
  induction parts with
  | nil => simp
  | cons part rest ih =>
      cases rest with
      | nil => simpa [join] using h
      | cons next rest =>
          rw [join_cons, each_append, each_append] at h
          exact List.forall_mem_cons.mpr ⟨h.1.1, ih h.2⟩

end

/-- No character of the text stands for half of a pair. -/
def Legible (s : String) : Prop :=
  ∀ c ∈ s.toList, isHalf c = false

theorem hasHalf_eq_false {s : String} : hasHalf s = false ↔ Legible s := by
  simp [hasHalf, Legible]

/-- The characters of a literal are checked one by one. -/
theorem legible_ofList {cs : List Char} (h : cs.all (!isHalf ·) = true) :
    Legible (String.ofList cs) := by
  simpa [Legible] using h

theorem legible_empty : Legible "" := legible_ofList (by decide)

@[simp] theorem legible_append {s t : String} : Legible (s ++ t) ↔ Legible s ∧ Legible t :=
  each_append

@[simp] theorem legible_toString {s : String} : Legible (toString s) ↔ Legible s := Iff.rfl

theorem legible_join {sep : String} {parts : List String} (hsep : Legible sep)
    (h : ∀ p ∈ parts, Legible p) : Legible (join sep parts) :=
  each_join hsep h

theorem legible_comma : Legible ", " := legible_ofList (by decide)

theorem legible_commas {α : Type} {f : α → String} {as : List α} (h : ∀ a ∈ as, Legible (f a)) :
    Legible (join ", " (as.map f)) :=
  legible_join legible_comma (List.forall_mem_map.mpr h)

theorem isHalf_sourceChar {c d : Char} (h : isHalf c = false) (hd : d ∈ sourceChar c) :
    isHalf d = false := by
  unfold sourceChar at hd
  split at hd
  · simp only [List.mem_cons, List.not_mem_nil, or_false] at hd
    rcases hd with rfl | rfl
    · decide
    · exact h
  · rwa [List.mem_singleton.mp hd]

theorem legible_sourceQuoted {s : String} (h : Legible s) : Legible (sourceQuoted s) := by
  intro d hd
  simp only [sourceQuoted, String.toList_ofList, List.mem_append, List.mem_cons, List.mem_flatMap,
    List.not_mem_nil, or_false] at hd
  rcases hd with (rfl | ⟨c, hc, hd⟩) | rfl
  · decide
  · exact isHalf_sourceChar (h c hc) hd
  · decide

theorem legible_repeated {n : Nat} {c : Char} (h : isHalf c = false) : Legible (repeated n c) := by
  intro d hd
  rw [repeated, String.toList_ofList, List.mem_replicate] at hd
  rwa [hd.2]

/-- Every character of the text is an ASCII one. -/
def Ascii (s : String) : Prop :=
  ∀ c ∈ s.toList, c.toNat < 128

theorem isHalf_of_ascii {c : Char} (h : c.toNat < 128) : isHalf c = false := by
  have hbelow : ¬ halfOffset + 0xD800 ≤ c.toNat := by
    have hoffset : halfOffset = 0x100000 := rfl
    omega
  unfold isHalf
  simp [hbelow]

theorem Ascii.legible {s : String} (h : Ascii s) : Legible s :=
  fun c hc => isHalf_of_ascii (h c hc)

theorem mem_dropLineEnd {cs : List Char} {c : Char} (hc : c ∈ cs) :
    c ∈ dropLineEnd cs ∨ c = '\n' := by
  unfold dropLineEnd
  split
  · next hend =>
      rw [beq_iff_eq, List.getLast?_eq_some_iff] at hend
      obtain ⟨front, rfl⟩ := hend
      simpa using hc
  · exact .inl hc

theorem ascii_of_isIdentifier {s : String} (h : isIdentifier s = true) : Ascii s := by
  intro c hc
  rcases mem_dropLineEnd hc with hc | rfl
  · exact toNat_of_isNameRest (isNameRest_of_isNameChars h c hc)
  · decide

theorem isDigit_number (n : Nat) : Each (·.isDigit = true) (toString n) := by
  intro c hc
  have hdigits : c ∈ Nat.toDigits 10 n := by simpa [toString, Nat.repr] using hc
  exact Nat.isDigit_of_mem_toDigits (by decide) (by decide) hdigits

theorem toNat_toUpper {c : Char} (h : c.toNat < 128) : c.toUpper.toNat < 128 := by
  unfold Char.toUpper
  split
  · next hlower =>
      obtain ⟨hfirst, hlast⟩ := hlower
      rw [UInt32.le_iff_toNat_le] at hfirst hlast
      have ha : 'a'.val.toNat = 97 := rfl
      have hz : 'z'.val.toNat = 122 := rfl
      have hshift : ('A'.val - 'a'.val).toNat = 4294967264 := rfl
      rw [Char.toNat, UInt32.toNat_add, hshift]
      omega
  · exact h

theorem mem_of_mem_splitChars {sep c : Char} {cs part : List Char} (hpart : part ∈ splitChars sep cs)
    (hc : c ∈ part) : c ∈ cs := by
  induction cs generalizing part with
  | nil =>
      rw [splitChars, List.mem_singleton] at hpart
      exact hpart ▸ hc
  | cons d rest ih =>
      have htail (part : List Char) (hpart : part ∈ splitChars sep rest) (hc : c ∈ part) :
          c ∈ d :: rest :=
        List.mem_cons_of_mem d (ih hpart hc)
      unfold splitChars at hpart
      split at hpart
      · rcases List.mem_cons.mp hpart with rfl | hpart
        · cases hc
        · exact htail part hpart hc
      · cases hsplit : splitChars sep rest with
        | nil =>
            rw [hsplit, List.mem_singleton] at hpart
            rw [hpart, List.mem_singleton] at hc
            exact hc ▸ List.mem_cons_self
        | cons first others =>
            rw [hsplit] at hpart htail
            rcases List.mem_cons.mp hpart with rfl | hpart
            · rcases List.mem_cons.mp hc with rfl | hc
              · exact List.mem_cons_self
              · exact htail first List.mem_cons_self hc
            · exact htail part (List.mem_cons_of_mem first hpart) hc

end Text

namespace Naming

open Text (Ascii)

theorem prefix_keyStem (column : String) : (keyStem column).toList <+: column.toList := by
  unfold keyStem
  split
  · rw [String.toList_ofList]
    exact ((List.dropLast_prefix _).trans (List.dropLast_prefix _)).trans (List.dropLast_prefix _)
  · exact List.prefix_refl _

theorem prefix_singular (name : String) : (singular name).toList <+: name.toList := by
  rw [singular, String.toList_ofList]
  unfold singularChars
  split
  · exact List.dropLast_prefix _
  · exact List.prefix_refl _

theorem ascii_singular {s : String} (h : Ascii s) : Ascii (singular s) :=
  fun c hc => h c ((prefix_singular s).subset hc)

theorem ascii_capitalized {cs : List Char} (h : ∀ c ∈ cs, c.toNat < 128) :
    ∀ c ∈ capitalized cs, c.toNat < 128 := by
  intro d hd
  cases cs with
  | nil => cases hd
  | cons c rest =>
      rw [List.forall_mem_cons] at h
      rw [capitalized, Text.upperChar, if_pos h.1, List.singleton_append, List.mem_cons] at hd
      rcases hd with rfl | hd
      · exact Text.toNat_toUpper h.1
      · exact h.2 d hd

theorem ascii_pascal {s : String} (h : Ascii s) : Ascii (pascal s) := by
  intro c hc
  rw [pascal, String.toList_ofList, pascalChars, List.mem_flatMap] at hc
  obtain ⟨part, hpart, hc⟩ := hc
  exact ascii_capitalized (fun d hd => h d (Text.mem_of_mem_splitChars hpart hd)) c hc

theorem ascii_keyStem {s : String} (h : Ascii s) : Ascii (keyStem s) :=
  fun c hc => h c ((prefix_keyStem s).subset hc)

theorem ascii_association {column table : String} (plural : Bool) (hc : Ascii column)
    (ht : Ascii table) : Ascii (association column table plural) := by
  unfold association
  split
  · split
    · exact ascii_pascal ht
    · exact ascii_pascal (ascii_singular ht)
  · exact ascii_pascal (ascii_keyStem hc)

end Naming

end TableLoom
