import TableLoom.Proofs.Check.Flags
import TableLoom.Proofs.Schema.Parts

/-!
The flags of a field. They are converted where they are read; but whether a flag contradicts the type,
and which mode a field without one has, is told from what the raw data counts as.
-/

namespace TableLoom.Schema

open Check (Checked SpellsNo)

variable {entries : List (Value × Value)}

/-- The flaw found in a field whose flag and type disagree. -/
def contradictionIssue (entries : List (Value × Value)) (typeName : String) (flag : Value) :
    Check.Issue :=
  ⟨[], .refused (contradiction entries typeName flag (splitTypeName typeName).2)⟩

/-- The flag of a field that is given and not null. -/
def flag? (entries : List (Value × Value)) : Option Value :=
  (Value.find? "nullable" entries).filter fun
    | .null => false
    | _ => true

/-- A field's flag counts for the other thing than its type says. -/
def Disagree (entries : List (Value × Value)) (typeName : String) (flag : Value) : Prop :=
  Value.find? "type" entries = some (.text typeName) ∧ flag? entries = some flag ∧
    flag.truthy ≠ (splitTypeName typeName).2

theorem checkNullable_cases (entries : List (Value × Value)) :
    checkNullable entries = .fits () ∧ (∀ typeName flag, ¬ Disagree entries typeName flag) ∨
      ∃ typeName flag, Disagree entries typeName flag ∧
        checkNullable entries = .flawed [contradictionIssue entries typeName flag] := by
  unfold checkNullable Disagree flag?
  split
  · next typeName htype =>
      rw [htype]
      cases hfind : Value.find? "nullable" entries with
      | none => exact .inl ⟨rfl, by simp⟩
      | some v =>
          dsimp only [Option.getD_some]
          split
          · exact .inl ⟨rfl, by simp⟩
          · next hnull =>
              have hgiven : (some v).filter (fun | .null => false | _ => true) = some v := by
                cases v with
                | null => exact absurd rfl hnull
                | _ => rfl
              rw [hgiven]
              split
              · next hne => exact .inr ⟨typeName, v, ⟨rfl, rfl, by simpa using hne⟩, rfl⟩
              · next heq =>
                  refine .inl ⟨rfl, ?_⟩
                  rintro _ _ ⟨htype, hv, hne⟩
                  cases htype
                  cases hv
                  exact heq (by simpa using hne)
  · next hother =>
      refine .inl ⟨rfl, ?_⟩
      rintro typeName flag ⟨htype, -⟩
      exact hother typeName htype

theorem located_readFieldEntries (entries : List (Value × Value)) :
    (readFieldEntries entries).Located := by
  have hnullable : (readNullable entries).Located := by
    unfold readNullable
    split
    · exact Checked.located_fits ()
    · exact Check.located_partOr
  have hmode : (readMode entries).Located := by
    unfold readMode
    split
    · exact Checked.located_fits _
    · exact Checked.located_fits _
    · exact Checked.located_under _ _
  unfold readFieldEntries
  exact (((((((Check.located_part.map.seq Check.located_part).seq hnullable).seq
    Check.located_partOr).seq Check.located_partOr).seq Check.located_partOr).seq hmode).seq
    Check.located_partOr).seqLeft (Check.located_noOthers _ _)

/-- Validation reports that the flag and the type of a field disagree. -/
def Reported (entries : List (Value × Value)) : Prop :=
  ∃ typeName flag, readField (.map entries) = .flawed [contradictionIssue entries typeName flag]

/-- No other flaw is told of a field as a whole. -/
theorem reported_iff : Reported entries ↔ ∃ typeName flag, Disagree entries typeName flag := by
  obtain ⟨hfits, hagree⟩ | ⟨typeName, flag, hdisagree, hflawed⟩ := checkNullable_cases entries
  · have hread : readField (.map entries) = readFieldEntries entries := by
      rw [readField, Check.record, hfits]
      rfl
    constructor
    · rintro ⟨typeName, flag, hreported⟩
      have hlocated := located_readFieldEntries entries
      rw [← hread, hreported] at hlocated
      exact absurd rfl (hlocated _ (List.mem_singleton_self _))
    · rintro ⟨typeName, flag, hdisagree⟩
      exact absurd hdisagree (hagree typeName flag)
  · have hread : readField (.map entries) = .flawed [contradictionIssue entries typeName flag] := by
      rw [readField, Check.record, hflawed]
      rfl
    exact iff_of_true ⟨typeName, flag, hread⟩ ⟨typeName, flag, hdisagree⟩

/-- A key of the entries is left out, or has nothing under it. -/
def Absent (key : String) (entries : List (Value × Value)) : Prop :=
  ∀ v, Value.find? key entries = some v → v = .null

theorem flag?_eq_none (h : Absent "nullable" entries) : flag? entries = none := by
  unfold flag?
  cases hfind : Value.find? "nullable" entries with
  | none => rfl
  | some v =>
      rw [h v hfind]
      rfl

theorem flag?_of_bool {flag : Value} {b : Bool} (given : Value.find? "nullable" entries = some flag)
    (converts : Check.bool flag = .fits b) : flag? entries = some flag := by
  unfold flag?
  rw [given]
  cases flag with
  | null => cases converts
  | _ => rfl

theorem readMode_of_absent (h : Absent "input_mode" entries) :
    readMode entries = .fits (derivedMode entries) := by
  unfold readMode
  cases hfind : Value.find? "input_mode" entries with
  | none => rfl
  | some v => rw [h v hfind]

theorem derivedMode_eq_autoGenerated : derivedMode entries = .autoGenerated ↔
    (∃ v, Value.find? "primary_key" entries = some v ∧ v.truthy = true) ∨ ¬ Absent "default" entries := by
  have hkey : ((Value.find? "primary_key" entries).getD .null).truthy = true ↔
      ∃ v, Value.find? "primary_key" entries = some v ∧ v.truthy = true := by
    cases Value.find? "primary_key" entries <;> simp [Value.truthy]
  rw [← hkey]
  unfold derivedMode Absent
  cases Value.find? "default" entries with
  | none => simp
  | some v => cases v <;> simp

theorem default_isSome {f : Field} (h : readFieldEntries entries = .fits f) :
    f.default.isSome = true ↔ ¬ Absent "default" entries := by
  obtain ⟨-, -, -, -, -, hdefault, -⟩ := readFieldEntries_eq_fits.mp h
  unfold Absent
  obtain ⟨hnone, hsame⟩ | ⟨v, hv, hread⟩ := Check.partOr_eq_fits.mp hdefault
  · simp [hnone, ← hsame]
  · rw [hv]
    unfold Check.optional at hread
    split at hread
    · simp [← Checked.fits.inj hread]
    · next v hnull =>
        obtain ⟨s, -, hs⟩ := Checked.map_eq_fits.mp hread
        simpa [← hs] using hnull

/-- Flags are taken by what they count as. So a contradiction is reported exactly if the flag converts to
the other thing than the type says, and a field without a mode is filled in by the database exactly if it
is a key or has a default; but a word that spells a no is taken for a yes. -/
theorem flags_taken_by_truth (entries : List (Value × Value)) :
    (∀ typeName flag b, Value.find? "type" entries = some (.text typeName) →
      Value.find? "nullable" entries = some flag → Check.bool flag = .fits b →
        (¬ SpellsNo flag → (Reported entries ↔ b ≠ (splitTypeName typeName).2)) ∧
          (SpellsNo flag → (Reported entries ↔ (splitTypeName typeName).2 = false))) ∧
    (Absent "nullable" entries → ¬ Reported entries) ∧
    ((∀ typeName, Value.find? "type" entries ≠ some (.text typeName)) → ¬ Reported entries) ∧
    ∀ f, readField (.map entries) = .fits f → Absent "input_mode" entries →
      (f.inputMode = .autoGenerated ↔ f.primaryKey = true ∨ f.default.isSome = true ∨
        ∃ v, Value.find? "primary_key" entries = some v ∧ SpellsNo v) := by
  refine ⟨fun typeName flag b htype hgiven hconverts => ?_, fun habsent => ?_, fun huntyped => ?_,
    fun f hread habsent => ?_⟩
  · have hreported : Reported entries ↔ flag.truthy ≠ (splitTypeName typeName).2 := by
      have hflag := flag?_of_bool hgiven hconverts
      rw [reported_iff]
      refine ⟨fun hdisagree => ?_, fun hne => ⟨typeName, flag, htype, hflag, hne⟩⟩
      obtain ⟨typeName', flag', htype', hflag', hne⟩ := hdisagree
      cases htype.symm.trans htype'
      cases hflag.symm.trans hflag'
      exact hne
    have htruthy := Check.truthy_of_bool hconverts
    rw [hreported]
    constructor
    · intro hno
      rw [Bool.eq_iff_iff.mpr (htruthy.trans (or_iff_left hno))]
    · intro hno
      rw [htruthy.mpr (.inr hno), ne_comm, ne_eq, Bool.not_eq_true]
  · rw [reported_iff]
    rintro ⟨typeName, flag, -, hflag, -⟩
    rw [flag?_eq_none habsent] at hflag
    cases hflag
  · rw [reported_iff]
    rintro ⟨typeName, flag, htype, -⟩
    exact huntyped typeName htype
  · have hfits := (readField_map.mp hread).2
    obtain ⟨-, -, -, hkey, -, -, hmode, -⟩ := readFieldEntries_eq_fits.mp hfits
    rw [readMode_of_absent habsent, Checked.fits.injEq] at hmode
    have hcounts : (∃ v, Value.find? "primary_key" entries = some v ∧ v.truthy = true) ↔
        f.primaryKey = true ∨ ∃ v, Value.find? "primary_key" entries = some v ∧ SpellsNo v := by
      obtain ⟨hnone, hsame⟩ | ⟨v, hv, hbool⟩ := Check.partOr_eq_fits.mp hkey
      · simp [hnone, ← hsame]
      · simpa [hv] using Check.truthy_of_bool hbool
    rw [← hmode, derivedMode_eq_autoGenerated, hcounts, default_isSome hfits, or_assoc,
      or_comm (a := ∃ v, Value.find? "primary_key" entries = some v ∧ SpellsNo v)]

/-- A field that is no key and may hold nothing, with words for no under both flags. -/
def wordedNo : List (Value × Value) :=
  Value.keyed [("name", .text "title"), ("type", .text "text_optional"), ("nullable", .text "no"),
    ("primary_key", .text "false")]

theorem readField_wordedNo : readField (.map wordedNo) = .fits
    { name := "title", type := ⟨.text, true⟩, inputMode := .autoGenerated } :=
  Checked.value?_eq_some.mp (by decide +kernel)

theorem spellsNo_no : SpellsNo (.text "no") :=
  ⟨"no", rfl, Checked.value?_eq_some.mp (by decide +kernel)⟩

theorem bool_no : Check.bool (.text "no") = .fits false :=
  Checked.value?_eq_some.mp (by decide +kernel)

/-- Its flag contradicts its type, which is not reported; and the database is to fill in the field. -/
theorem flags_taken_by_truth_wordedNo :
    (Reported wordedNo ↔ (splitTypeName "text_optional").2 = false) ∧
      ∃ f, readField (.map wordedNo) = .fits f ∧
        (f.inputMode = .autoGenerated ↔ f.primaryKey = true ∨ f.default.isSome = true ∨
          ∃ v, Value.find? "primary_key" wordedNo = some v ∧ SpellsNo v) := by
  obtain ⟨hflag, -, -, hmode⟩ := flags_taken_by_truth wordedNo
  have hmodeless : Absent "input_mode" wordedNo := fun v hv =>
    absurd hv (Option.some_ne_none v).symm
  exact ⟨(hflag "text_optional" (.text "no") false rfl rfl bool_no).2 spellsNo_no,
    _, readField_wordedNo, hmode _ readField_wordedNo hmodeless⟩

/-- A text field that is not nullable, as it says itself. -/
def wordedPlain : List (Value × Value) :=
  Value.keyed [("name", .text "title"), ("type", .text "text"), ("nullable", .text "no")]

/-- What agrees with the type is refused, and a field that is no key and has no default is taken from
what is asked for. -/
theorem spelled_no_misread :
    (Check.bool (.text "no") = .fits false ∧ (splitTypeName "text").2 = false ∧ Reported wordedPlain) ∧
      ∃ f, readField (.map wordedNo) = .fits f ∧ f.primaryKey = false ∧ f.default = none ∧
        f.inputMode = .autoGenerated := by
  have hdisagree : Disagree wordedPlain "text" (.text "no") := ⟨rfl, rfl, by decide⟩
  exact ⟨⟨bool_no, by decide, reported_iff.mpr ⟨_, _, hdisagree⟩⟩, _, readField_wordedNo, rfl, rfl, rfl⟩

end TableLoom.Schema
