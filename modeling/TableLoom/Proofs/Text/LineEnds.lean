import TableLoom.Proofs.Text.Utf8
import TableLoom.Storage.Tree

/-!
Lines of a text and of its bytes. Lines are counted in the bytes as in the text, and a part of a text that
goes over no line end is in it however line ends are written.
-/

namespace TableLoom.Text

/-- The number of lines that bytes hold; a last line without an end counts. -/
def byteLines (bytes : List UInt8) : Nat :=
  bytes.count 10 + if bytes.isEmpty || bytes.getLast? == some 10 then 0 else 1

theorem encodeChar_lineFeed : String.utf8EncodeChar '\n' = [10] := by
  decide

/-- No byte of another character looks like a character of one byte. -/
theorem notMem_encodeChar {c d : Char} (single : d.val.toNat < 128) (h : c ≠ d) :
    UInt8.ofNat d.val.toNat ∉ String.utf8EncodeChar c := by
  have hvalue : c.val.toNat ≠ d.val.toNat := fun hsame => h (Char.ext (UInt32.toNat_inj.mp hsame))
  generalize d.val.toNat = n at single hvalue
  have hbyte {m : Nat} (hm : m < 256) (hne : m ≠ n) : UInt8.ofNat n ≠ UInt8.ofNat m := by
    intro hsame
    rw [← Utf8.toNat_ofNat hm, ← hsame, Utf8.toNat_ofNat (by omega)] at hne
    exact hne rfl
  have hvalid : c.val.toNat < 0xD800 ∨ 0xDFFF < c.val.toNat ∧ c.val.toNat < 0x110000 := c.valid
  unfold String.utf8EncodeChar
  generalize c.val.toNat = v at hvalue hvalid
  dsimp only
  split
  · rw [List.mem_singleton]
    exact hbyte (by omega) hvalue
  all_goals try split
  all_goals try split
  all_goals simp only [List.mem_cons, List.not_mem_nil, or_false, not_or]
  · exact ⟨hbyte (by omega) (by omega), hbyte (by omega) (by omega)⟩
  · exact ⟨hbyte (by omega) (by omega), hbyte (by omega) (by omega), hbyte (by omega) (by omega)⟩
  · exact ⟨hbyte (by omega) (by omega), hbyte (by omega) (by omega), hbyte (by omega) (by omega),
      hbyte (by omega) (by omega)⟩

theorem encodeChar_single {d : Char} (single : d.val.toNat < 128) :
    String.utf8EncodeChar d = [UInt8.ofNat d.val.toNat] := by
  rw [String.utf8EncodeChar, if_pos (by omega)]

/-- A character of one byte is in a text exactly if that byte is in the bytes of the text. -/
theorem mem_toUTF8_iff {d : Char} (single : d.val.toNat < 128) (s : String) :
    UInt8.ofNat d.val.toNat ∈ s.toUTF8.toList ↔ d ∈ s.toList := by
  rw [Utf8.toList_toUTF8, List.mem_flatMap]
  constructor
  · rintro ⟨c, hc, hbyte⟩
    obtain rfl : c = d := by
      by_contra hne
      exact notMem_encodeChar single hne hbyte
    exact hc
  · intro hd
    exact ⟨d, hd, by rw [encodeChar_single single]; exact List.mem_singleton_self _⟩

theorem lineFeed_notMem_encodeChar {c : Char} (h : c ≠ '\n') :
    (10 : UInt8) ∉ String.utf8EncodeChar c :=
  notMem_encodeChar (by decide) h

theorem count_encoded (cs : List Char) :
    (cs.flatMap String.utf8EncodeChar).count 10 = cs.count '\n' := by
  induction cs with
  | nil => rfl
  | cons c rest ih =>
      rw [List.flatMap_cons, List.count_append, ih, List.count_cons]
      by_cases hc : c = '\n'
      · rw [hc, encodeChar_lineFeed]
        simp [Nat.add_comm]
      · rw [List.count_eq_zero.mpr (lineFeed_notMem_encodeChar hc)]
        simp [hc]

/-- Lines are counted in the bytes of a text as in the text. -/
theorem byteLines_toUTF8 (s : String) : byteLines s.toUTF8.toList = lineCount s := by
  rw [byteLines, lineCount, Utf8.toList_toUTF8, count_encoded]
  rcases List.eq_nil_or_concat s.toList with hnil | ⟨init, c, hconcat⟩
  · simp [hnil]
  · have hfull := String.utf8EncodeChar_ne_nil (c := c)
    rw [hconcat, List.concat_eq_append, List.flatMap_append, List.flatMap_singleton]
    have hlast : ((init.flatMap String.utf8EncodeChar ++ String.utf8EncodeChar c).getLast? == some 10) =
        (c == '\n') := by
      rw [List.getLast?_append_of_ne_nil _ hfull]
      by_cases hc : c = '\n'
      · rw [hc, encodeChar_lineFeed]
        rfl
      · rw [beq_false_of_ne hc, beq_eq_false_iff_ne]
        exact fun hten => lineFeed_notMem_encodeChar hc (List.mem_of_getLast? hten)
    rw [hlast]
    simp [hfull]

section

open Storage (unifyLineEnds)

variable {part : List Char}

theorem isPrefixOf_unifyLineEnds (whole : ∀ c ∈ part, c ≠ '\n' ∧ c ≠ '\r') (cs : List Char) :
    part.isPrefixOf (unifyLineEnds cs) = part.isPrefixOf cs := by
  induction part generalizing cs with
  | nil => simp
  | cons p ps ih =>
      obtain ⟨⟨hfeed, hreturn⟩, hps⟩ := List.forall_mem_cons.mp whole
      rw [← beq_eq_false_iff_ne] at hfeed hreturn
      fun_cases unifyLineEnds cs with
      | case1 rest => simp [List.isPrefixOf, hfeed, hreturn]
      | case2 rest => simp [List.isPrefixOf, hfeed, hreturn]
      | case3 c rest => simp [List.isPrefixOf, ih hps]
      | case4 => rfl

/-- A part without line ends is found whichever way they are written. -/
theorem containsChars_unifyLineEnds (whole : ∀ c ∈ part, c ≠ '\n' ∧ c ≠ '\r') (nonempty : part ≠ [])
    (cs : List Char) : containsChars part (unifyLineEnds cs) = containsChars part cs := by
  obtain ⟨p, ps, rfl⟩ := List.exists_cons_of_ne_nil nonempty
  obtain ⟨⟨hfeed, hreturn⟩, -⟩ := List.forall_mem_cons.mp whole
  rw [← beq_eq_false_iff_ne] at hfeed hreturn
  fun_induction unifyLineEnds cs with
  | case1 rest ih => simp [containsChars, List.isPrefixOf, hfeed, hreturn, ih]
  | case2 rest _ ih => simp [containsChars, List.isPrefixOf, hfeed, hreturn, ih]
  | case3 c rest hpair hreturn' ih =>
      have hprefix := isPrefixOf_unifyLineEnds whole (c :: rest)
      rw [unifyLineEnds] at hprefix
      · rw [containsChars, containsChars, hprefix, ih]
      · exact hpair
      · exact hreturn'
  | case4 => rfl

theorem return_notMem_unifyLineEnds (cs : List Char) : '\r' ∉ unifyLineEnds cs := by
  fun_induction unifyLineEnds cs with
  | case1 rest ih => simp [ih]
  | case2 rest hpair ih => simp [ih]
  | case3 c rest hpair hreturn ih =>
      simp [Ne.symm hreturn, ih]
  | case4 => simp

theorem unifyLineEnds_eq_self {cs : List Char} (h : '\r' ∉ cs) : unifyLineEnds cs = cs := by
  fun_induction unifyLineEnds cs with
  | case1 rest ih => simp at h
  | case2 rest hpair ih => simp at h
  | case3 c rest hpair hreturn ih => rw [ih (by simp_all)]
  | case4 => rfl

end

end TableLoom.Text

namespace TableLoom.Storage

variable {b : ByteArray} {s : String}

theorem textOf?_eq_some_iff :
    textOf? b = some s ↔ ∃ s' : String, b = s'.toUTF8 ∧ unifyLineEnds s'.toList = s.toList := by
  rw [textOf?, Option.map_eq_some_iff]
  refine exists_congr fun s' => and_congr Text.Utf8.decode?_eq_some_iff ?_
  rw [← String.toList_inj, String.toList_ofList]

/-- No text that is read holds a carriage return. -/
theorem return_notMem_of_textOf? (h : textOf? b = some s) : '\r' ∉ s.toList := by
  obtain ⟨s', -, hs⟩ := textOf?_eq_some_iff.mp h
  rw [← hs]
  exact Text.return_notMem_unifyLineEnds _

/-- The bytes of a text without carriage returns are read as it, and no others without them are. -/
theorem textOf?_of_notMem (clear : 13 ∉ b.toList) : textOf? b = some s ↔ b = s.toUTF8 := by
  have hreturn {s' : String} (hb : b = s'.toUTF8) : '\r' ∉ s'.toList :=
    fun hmem => clear (hb ▸ (Text.mem_toUTF8_iff (d := '\r') (by decide) s').mpr hmem)
  rw [textOf?_eq_some_iff]
  constructor
  · rintro ⟨s', hb, hs⟩
    rw [Text.unifyLineEnds_eq_self (hreturn hb)] at hs
    rw [hb, String.toList_inj.mp hs]
  · intro hb
    exact ⟨s, hb, Text.unifyLineEnds_eq_self (hreturn hb)⟩

/-- The bytes of a text are read as that text exactly if it holds no carriage return. -/
theorem textOf?_toUTF8_iff : textOf? s.toUTF8 = some s ↔ '\r' ∉ s.toList := by
  refine ⟨return_notMem_of_textOf?, fun h => ?_⟩
  exact textOf?_eq_some_iff.mpr ⟨s, rfl, Text.unifyLineEnds_eq_self h⟩

end TableLoom.Storage
