import Mathlib.Data.List.Basic
import TableLoom.Text.Utf8

/-!
Bytes hold a text exactly if they are the bytes that the text is written with.
-/

namespace TableLoom.Text.Utf8

theorem toList_loop (b : ByteArray) (i : Nat) (before : List UInt8) :
    ByteArray.toList.loop b i before = before.reverse ++ b.data.toList.drop i := by
  fun_induction ByteArray.toList.loop b i before with
  | case1 i before h ih =>
      rw [ih, List.reverse_cons, List.append_assoc]
      have hi : i < b.data.toList.length := by simpa using h
      rw [List.drop_eq_getElem_cons hi]
      have hget : b.get! i = b.data.toList[i] := by
        simp only [ByteArray.get!, Array.getElem_toList]
        exact getElem!_pos b.data i (by simpa using h)
      rw [hget]
      rfl
  | case2 i before h =>
      rw [List.drop_eq_nil_of_le (by simpa using h), List.append_nil]

theorem toList_eq (b : ByteArray) : b.toList = b.data.toList := by
  rw [ByteArray.toList, toList_loop]
  rfl

theorem toList_injective {a b : ByteArray} (h : a.toList = b.toList) : a = b := by
  rw [toList_eq, toList_eq, Array.toList_inj] at h
  exact ByteArray.ext h

theorem toList_toUTF8 (s : String) : s.toUTF8.toList = s.toList.flatMap String.utf8EncodeChar := by
  rw [toList_eq, String.toUTF8_eq_toByteArray, ← String.utf8Encode_toList, List.utf8Encode,
    List.toList_data_toByteArray]

section

variable {us : List (Option Char)} {b : UInt8}

/-- Where reading stands once a byte inside a character has been taken. -/
def Progress.taken (missing bits : Nat) (us : List (Option Char)) : Progress :=
  if missing ≤ 1 then ⟨.start, some (Char.ofNat bits) :: us⟩
  else ⟨.inside (missing - 1) bits 0x80 0xBF, us⟩

theorem next_inside {missing bits low high : Nat} (hlow : low ≤ b.toNat) (hhigh : b.toNat ≤ high) :
    Progress.next ⟨.inside missing bits low high, us⟩ b =
      .taken missing (64 * bits + (b.toNat - 0x80)) us := by
  simp [Progress.next, Progress.taken, hlow, hhigh]

theorem next_one (h : b.toNat < 0x80) :
    Progress.next ⟨.start, us⟩ b = ⟨.start, some (Char.ofNat b.toNat) :: us⟩ := by
  simp [Progress.next, Progress.first, h]

theorem next_two (hlow : 0xC2 ≤ b.toNat) (hhigh : b.toNat ≤ 0xDF) :
    Progress.next ⟨.start, us⟩ b = ⟨.inside 1 (b.toNat - 0xC0) 0x80 0xBF, us⟩ := by
  have h : ¬ b.toNat < 0x80 := by omega
  simp [Progress.next, Progress.first, h, hlow, hhigh]

theorem next_three (hlow : 0xE0 ≤ b.toNat) (hhigh : b.toNat ≤ 0xEF) :
    Progress.next ⟨.start, us⟩ b = ⟨.inside 2 (b.toNat - 0xE0)
      (if b.toNat = 0xE0 then 0xA0 else 0x80) (if b.toNat = 0xED then 0x9F else 0xBF), us⟩ := by
  have h : ¬ b.toNat < 0x80 := by omega
  have h' : ¬ b.toNat ≤ 0xDF := by omega
  by_cases hE0 : b.toNat = 0xE0
  · simp [Progress.next, Progress.first, hE0]
  · by_cases hED : b.toNat = 0xED
    · simp [Progress.next, Progress.first, hED]
    · have hlow' : 0xE1 ≤ b.toNat := by omega
      simp [Progress.next, Progress.first, h, h', hE0, hED, hlow', hhigh]

theorem next_four (hlow : 0xF0 ≤ b.toNat) (hhigh : b.toNat ≤ 0xF4) :
    Progress.next ⟨.start, us⟩ b = ⟨.inside 3 (b.toNat - 0xF0)
      (if b.toNat = 0xF0 then 0x90 else 0x80) (if b.toNat = 0xF4 then 0x8F else 0xBF), us⟩ := by
  obtain h | h | h | h | h : b.toNat = 0xF0 ∨ b.toNat = 0xF1 ∨ b.toNat = 0xF2 ∨ b.toNat = 0xF3 ∨
      b.toNat = 0xF4 := by omega
  all_goals simp [Progress.next, Progress.first, h]

theorem next_none (h : 0x80 ≤ b.toNat) (htwo : ¬ (0xC2 ≤ b.toNat ∧ b.toNat ≤ 0xF4)) :
    Progress.next ⟨.start, us⟩ b = ⟨.start, none :: us⟩ := by
  have h1 : ¬ b.toNat < 0x80 := by omega
  have h2 : ¬ (0xC2 ≤ b.toNat ∧ b.toNat ≤ 0xDF) := by omega
  have h3 : b.toNat ≠ 0xE0 := by omega
  have h4 : b.toNat ≠ 0xED := by omega
  have h5 : ¬ (0xE1 ≤ b.toNat ∧ b.toNat ≤ 0xEF) := by omega
  have h6 : b.toNat ≠ 0xF0 := by omega
  have h7 : ¬ (0xF1 ≤ b.toNat ∧ b.toNat ≤ 0xF3) := by omega
  have h8 : b.toNat ≠ 0xF4 := by omega
  simp only [Progress.next, Progress.first, h1, ↓reduceIte, Bool.and_eq_true, decide_eq_true_eq, h2,
    beq_iff_eq, h3, h4, h5, h6, h7, h8]

theorem toNat_ofNat {n : Nat} (h : n < 256) : (UInt8.ofNat n).toNat = n := by
  rw [UInt8.toNat_ofNat']
  exact Nat.mod_eq_of_lt h

theorem toNat_tail (v : Nat) : (UInt8.ofNat (v % 0x40 + 0x80)).toNat = v % 64 + 128 :=
  toNat_ofNat (by omega)

/-- The bytes of a character are read as that character. -/
theorem foldl_encodeChar (c : Char) (us : List (Option Char)) :
    (String.utf8EncodeChar c).foldl Progress.next ⟨.start, us⟩ = ⟨.start, some c :: us⟩ := by
  have hvalid : c.val.toNat < 0xD800 ∨ 0xDFFF < c.val.toNat ∧ c.val.toNat < 0x110000 := c.valid
  have hchar : Char.ofNat c.val.toNat = c := c.ofNat_toNat
  unfold String.utf8EncodeChar
  generalize c.val.toNat = v at *
  simp only
  split
  · have h0 : (UInt8.ofNat v).toNat = v := toNat_ofNat (by omega)
    rw [List.foldl_cons, next_one (by omega), h0, hchar]
    rfl
  split
  · have h0 : (UInt8.ofNat (v / 64 % 0x20 + 0xc0)).toNat = v / 64 % 32 + 192 := toNat_ofNat (by omega)
    have h1 := toNat_tail v
    have hbits : 64 * (v / 64 % 32 + 192 - 0xC0) + (v % 64 + 128 - 0x80) = v := by omega
    rw [List.foldl_cons, next_two (by omega) (by omega), List.foldl_cons,
      next_inside (by omega) (by omega), h0, h1, hbits, Progress.taken, if_pos (by omega), hchar]
    rfl
  split
  · have h0 : (UInt8.ofNat (v / 4096 % 0x10 + 0xe0)).toNat = v / 4096 % 16 + 224 :=
      toNat_ofNat (by omega)
    have h1 := toNat_tail (v / 64)
    have h2 := toNat_tail v
    have hbits : 64 * (64 * (v / 4096 % 16 + 224 - 0xE0) + (v / 64 % 64 + 128 - 0x80)) +
        (v % 64 + 128 - 0x80) = v := by omega
    rw [List.foldl_cons, next_three (by omega) (by omega), List.foldl_cons,
      next_inside (by split <;> omega) (by split <;> omega), Progress.taken, if_neg (by omega),
      List.foldl_cons, next_inside (by omega) (by omega), h0, h1, h2, hbits, Progress.taken,
      if_pos (by omega), hchar]
    rfl
  · have h0 : (UInt8.ofNat (v / 262144 % 0x08 + 0xf0)).toNat = v / 262144 % 8 + 240 :=
      toNat_ofNat (by omega)
    have h1 := toNat_tail (v / 4096)
    have h2 := toNat_tail (v / 64)
    have h3 := toNat_tail v
    have hbits : 64 * (64 * (64 * (v / 262144 % 8 + 240 - 0xF0) + (v / 4096 % 64 + 128 - 0x80)) +
        (v / 64 % 64 + 128 - 0x80)) + (v % 64 + 128 - 0x80) = v := by omega
    rw [List.foldl_cons, next_four (by omega) (by omega), List.foldl_cons,
      next_inside (by split <;> omega) (by split <;> omega), Progress.taken, if_neg (by omega),
      List.foldl_cons, next_inside (by omega) (by omega), Progress.taken, if_neg (by omega),
      List.foldl_cons, next_inside (by omega) (by omega), h0, h1, h2, h3, hbits, Progress.taken,
      if_pos (by omega), hchar]
    rfl

theorem foldl_encoded (cs : List Char) (us : List (Option Char)) :
    (cs.flatMap String.utf8EncodeChar).foldl Progress.next ⟨.start, us⟩ =
      ⟨.start, (cs.map some).reverse ++ us⟩ := by
  induction cs generalizing us with
  | nil => rfl
  | cons c rest ih =>
      rw [List.flatMap_cons, List.foldl_append, foldl_encodeChar, ih]
      simp

theorem none_mem_first {p : Progress} (h : none ∈ p.units) (n : Nat) : none ∈ (p.first n).units := by
  unfold Progress.first
  repeat' split
  all_goals simp [h]

theorem none_mem_next {p : Progress} (h : none ∈ p.units) (b : UInt8) : none ∈ (p.next b).units := by
  unfold Progress.next
  split
  · exact none_mem_first h _
  · dsimp only
    repeat' split
    · exact List.mem_cons_of_mem _ h
    · exact h
    · exact none_mem_first (List.mem_cons_of_mem _ h) _

theorem none_mem_foldl {p : Progress} (h : none ∈ p.units) (bytes : List UInt8) :
    none ∈ (bytes.foldl Progress.next p).units := by
  induction bytes generalizing p with
  | nil => exact h
  | cons b rest ih => exact ih (none_mem_next h b)

/-- Reading that comes to the end of a text from inside a character takes a byte that fits there. -/
theorem of_inside {missing bits low high : Nat} {bytes : List UInt8} {us' : List (Option Char)}
    (h : bytes.foldl Progress.next ⟨.inside missing bits low high, us⟩ = ⟨.start, us'⟩)
    (whole : none ∉ us') : ∃ b rest, bytes = b :: rest ∧ low ≤ b.toNat ∧ b.toNat ≤ high ∧
      rest.foldl Progress.next (.taken missing (64 * bits + (b.toNat - 0x80)) us) = ⟨.start, us'⟩ := by
  cases bytes with
  | nil => cases h
  | cons b rest =>
      rw [List.foldl_cons] at h
      by_cases hb : low ≤ b.toNat ∧ b.toNat ≤ high
      · rw [next_inside hb.1 hb.2] at h
        exact ⟨b, rest, rfl, hb.1, hb.2, h⟩
      · refine absurd ?_ whole
        have hnone : none ∈ (Progress.next ⟨.inside missing bits low high, us⟩ b).units := by
          have hfirst := none_mem_first (p := ⟨.inside missing bits low high, none :: us⟩)
            List.mem_cons_self b.toNat
          simpa [Progress.next, hb] using hfirst
        simpa [h] using none_mem_foldl hnone rest

theorem toNat_charOfNat {n : Nat} (h : n < 0xD800 ∨ 0xDFFF < n ∧ n < 0x110000) :
    (Char.ofNat n).val.toNat = n := by
  have hvalid : n.isValidChar := h
  rw [Char.ofNat, dif_pos hvalid]
  rfl

theorem encodeChar_one (h : b.toNat < 0x80) : String.utf8EncodeChar (Char.ofNat b.toNat) = [b] := by
  rw [String.utf8EncodeChar, toNat_charOfNat (by omega)]
  rw [if_pos (by omega), UInt8.ofNat_toNat]

theorem eq_ofNat {n : Nat} (h : b.toNat = n) : UInt8.ofNat n = b := by
  rw [← h, UInt8.ofNat_toNat]

theorem encodeChar_two {a : UInt8} (ha : 0xC2 ≤ a.toNat ∧ a.toNat ≤ 0xDF)
    (hb : 0x80 ≤ b.toNat ∧ b.toNat ≤ 0xBF) :
    String.utf8EncodeChar (Char.ofNat (64 * (a.toNat - 0xC0) + (b.toNat - 0x80))) = [a, b] := by
  rw [String.utf8EncodeChar, toNat_charOfNat (by omega)]
  rw [if_neg (by omega), if_pos (by omega), eq_ofNat (b := a) (by omega), eq_ofNat (b := b) (by omega)]

theorem of_ite_le {c : Prop} [Decidable c] {special usual n : Nat}
    (h : (if c then special else usual) ≤ n) (hle : usual ≤ special) :
    usual ≤ n ∧ (c → special ≤ n) := by
  split at h
  · next hc => exact ⟨Nat.le_trans hle h, fun _ => h⟩
  · next hc => exact ⟨h, fun hc' => absurd hc' hc⟩

theorem of_le_ite {c : Prop} [Decidable c] {special usual n : Nat}
    (h : n ≤ if c then special else usual) (hle : special ≤ usual) :
    n ≤ usual ∧ (c → n ≤ special) := by
  split at h
  · next hc => exact ⟨Nat.le_trans h hle, fun _ => h⟩
  · next hc => exact ⟨h, fun hc' => absurd hc' hc⟩

theorem encodeChar_three {a c : UInt8} (ha : 0xE0 ≤ a.toNat ∧ a.toNat ≤ 0xEF)
    (hb : (if a.toNat = 0xE0 then 0xA0 else 0x80) ≤ b.toNat ∧
      b.toNat ≤ if a.toNat = 0xED then 0x9F else 0xBF)
    (hc : 0x80 ≤ c.toNat ∧ c.toNat ≤ 0xBF) :
    String.utf8EncodeChar (Char.ofNat (64 * (64 * (a.toNat - 0xE0) + (b.toNat - 0x80)) +
      (c.toNat - 0x80))) = [a, b, c] := by
  have hlow := of_ite_le hb.1 (by decide)
  have hhigh := of_le_ite hb.2 (by decide)
  rw [String.utf8EncodeChar, toNat_charOfNat (by omega)]
  rw [if_neg (by omega), if_neg (by omega), if_pos (by omega), eq_ofNat (b := a) (by omega),
    eq_ofNat (b := b) (by omega), eq_ofNat (b := c) (by omega)]

theorem encodeChar_four {a c d : UInt8} (ha : 0xF0 ≤ a.toNat ∧ a.toNat ≤ 0xF4)
    (hb : (if a.toNat = 0xF0 then 0x90 else 0x80) ≤ b.toNat ∧
      b.toNat ≤ if a.toNat = 0xF4 then 0x8F else 0xBF)
    (hc : 0x80 ≤ c.toNat ∧ c.toNat ≤ 0xBF) (hd : 0x80 ≤ d.toNat ∧ d.toNat ≤ 0xBF) :
    String.utf8EncodeChar (Char.ofNat (64 * (64 * (64 * (a.toNat - 0xF0) + (b.toNat - 0x80)) +
      (c.toNat - 0x80)) + (d.toNat - 0x80))) = [a, b, c, d] := by
  have hlow := of_ite_le hb.1 (by decide)
  have hhigh := of_le_ite hb.2 (by decide)
  rw [String.utf8EncodeChar, toNat_charOfNat (by omega)]
  rw [if_neg (by omega), if_neg (by omega), if_neg (by omega), eq_ofNat (b := a) (by omega),
    eq_ofNat (b := b) (by omega), eq_ofNat (b := c) (by omega), eq_ofNat (b := d) (by omega)]

/-- Bytes that hold a text begin with the bytes of a character. -/
theorem exists_first {rest : List UInt8} {us' : List (Option Char)}
    (h : (b :: rest).foldl Progress.next ⟨.start, us⟩ = ⟨.start, us'⟩) (whole : none ∉ us') :
    ∃ c rest', b :: rest = String.utf8EncodeChar c ++ rest' ∧
      rest'.foldl Progress.next ⟨.start, some c :: us⟩ = ⟨.start, us'⟩ := by
  rw [List.foldl_cons] at h
  by_cases hone : b.toNat < 0x80
  · rw [next_one hone] at h
    exact ⟨_, rest, by rw [encodeChar_one hone]; rfl, h⟩
  by_cases hnone : 0xC2 ≤ b.toNat ∧ b.toNat ≤ 0xF4
  swap
  · rw [next_none (by omega) hnone] at h
    refine absurd ?_ whole
    simpa [h] using none_mem_foldl (p := ⟨.start, none :: us⟩) List.mem_cons_self rest
  by_cases htwo : b.toNat ≤ 0xDF
  · rw [next_two hnone.1 htwo] at h
    obtain ⟨b1, rest, rfl, hlow, hhigh, h⟩ := of_inside h whole
    exact ⟨_, rest, by rw [encodeChar_two ⟨hnone.1, htwo⟩ ⟨hlow, hhigh⟩]; rfl, h⟩
  by_cases hthree : b.toNat ≤ 0xEF
  · have hlead : 0xE0 ≤ b.toNat := by omega
    rw [next_three hlead hthree] at h
    obtain ⟨b1, rest, rfl, hlow1, hhigh1, h⟩ := of_inside h whole
    obtain ⟨b2, rest, rfl, hlow2, hhigh2, h⟩ := of_inside h whole
    exact ⟨_, rest, by
      rw [encodeChar_three ⟨hlead, hthree⟩ ⟨hlow1, hhigh1⟩ ⟨hlow2, hhigh2⟩]; rfl, h⟩
  · have hlead : 0xF0 ≤ b.toNat := by omega
    rw [next_four hlead hnone.2] at h
    obtain ⟨b1, rest, rfl, hlow1, hhigh1, h⟩ := of_inside h whole
    obtain ⟨b2, rest, rfl, hlow2, hhigh2, h⟩ := of_inside h whole
    obtain ⟨b3, rest, rfl, hlow3, hhigh3, h⟩ := of_inside h whole
    exact ⟨_, rest, by
      rw [encodeChar_four ⟨hlead, hnone.2⟩ ⟨hlow1, hhigh1⟩ ⟨hlow2, hhigh2⟩ ⟨hlow3, hhigh3⟩]; rfl, h⟩

theorem exists_encoded {bytes : List UInt8} {us us' : List (Option Char)}
    (h : bytes.foldl Progress.next ⟨.start, us⟩ = ⟨.start, us'⟩) (whole : none ∉ us') :
    ∃ cs : List Char,
      bytes = cs.flatMap String.utf8EncodeChar ∧ us' = (cs.map some).reverse ++ us := by
  cases bytes with
  | nil =>
      cases h
      exact ⟨[], rfl, rfl⟩
  | cons b rest =>
      obtain ⟨c, rest', hbytes, hrest⟩ := exists_first h whole
      have hshorter : rest'.length < (b :: rest).length := by
        have hpos := List.length_pos_of_ne_nil (String.utf8EncodeChar_ne_nil (c := c))
        rw [hbytes, List.length_append]
        omega
      obtain ⟨cs, hcs, hus⟩ := exists_encoded hrest whole
      exact ⟨c :: cs, by rw [hbytes, hcs, List.flatMap_cons], by simp [hus]⟩
termination_by bytes.length

end

theorem mapM_id_eq_some {us : List (Option Char)} {cs : List Char} :
    us.mapM id = some cs ↔ us = cs.map some := by
  induction us generalizing cs with
  | nil => cases cs <;> simp
  | cons u rest ih =>
      cases u with
      | none => cases cs <;> simp
      | some c =>
          rw [List.mapM_cons]
          cases cs <;> simp [ih, Option.bind_eq_some_iff, and_comm]

theorem units_toUTF8 (s : String) : units s.toUTF8.toList = s.toList.map some := by
  rw [units, toList_toUTF8, foldl_encoded]
  simp

/-- Bytes hold a text exactly if they are its bytes. -/
theorem decode?_eq_some_iff {bytes : ByteArray} {s : String} :
    decode? bytes = some s ↔ bytes = s.toUTF8 := by
  constructor
  · intro h
    obtain ⟨cs, hcs, rfl⟩ := Option.map_eq_some_iff.mp h
    rw [mapM_id_eq_some] at hcs
    apply toList_injective
    rw [toList_toUTF8, String.toList_ofList]
    unfold units at hcs
    dsimp only at hcs
    have hwhole : none ∉ cs.map some := by simp
    generalize hprogress : bytes.toList.foldl Progress.next {} = p at hcs
    obtain ⟨state, us⟩ := p
    cases state with
    | inside missing bits low high => exact absurd (hcs ▸ by simp) hwhole
    | start =>
        have hus : none ∉ us := by
          rw [← hcs] at hwhole
          simpa using hwhole
        obtain ⟨cs', hbytes, rfl⟩ := exists_encoded hprogress hus
        have hsame : cs'.map some = cs.map some := by simpa using hcs
        rw [hbytes, (List.map_inj_right fun _ _ h => Option.some.inj h).mp hsame]
  · rintro rfl
    rw [decode?, mapM_id_eq_some.mpr (units_toUTF8 s), Option.map_some, String.ofList_toList]

theorem decode_toUTF8 (s : String) : decode s.toUTF8 = s := by
  rw [decode, units_toUTF8, List.map_map]
  change String.ofList (s.toList.map id) = s
  rw [List.map_id, String.ofList_toList]

end TableLoom.Text.Utf8
