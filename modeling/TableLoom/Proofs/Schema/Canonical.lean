import TableLoom.Proofs.Schema.Acceptance
import TableLoom.Proofs.Schema.Said
import TableLoom.Proofs.Traversal

/-!
Fields in their one form. The suffix of a stored type and the stored flag say the same, and a field is
read again from all that is stored of it, unless its type was given in bytes: then nobody compared the
flag with the suffix.
-/

namespace TableLoom.Schema

open Check (Checked Given)

/-- The types of members, each by the name of its base type. -/
def memberTypes : List (String × String) :=
  BaseType.all.map fun b => (b.name, b.memberType)

theorem lookup_memberTypes (t : FieldType) :
    memberTypes.lookup (splitTypeName t.name).1 = some t.base.memberType := by
  obtain ⟨b, n⟩ := t
  cases b <;> cases n <;> decide

theorem suffix_iff (t : FieldType) : optionalSuffix.toList <:+ t.name.toList ↔ t.nullable = true := by
  obtain ⟨b, n⟩ := t
  cases b <;> cases n <;> decide

namespace Field

/-- The type ends in the suffix exactly if the flag says that the column may hold nothing. -/
def Canonical (f : Field) : Prop :=
  optionalSuffix.toList <:+ f.type.name.toList ↔ f.nullable = true

theorem canonical_iff {f : Field} : f.Canonical ↔ f.nullable = f.type.nullable := by
  rw [Canonical, suffix_iff, ← Bool.eq_iff_iff, eq_comm]

/-- All that is stored of a field. -/
def stored (f : Field) : List (String × Value) :=
  [("name", .text f.name), ("type", .text f.type.name), ("nullable", .bool f.nullable),
    ("primary_key", .bool f.primaryKey), ("unique", .bool f.unique), ("default", .ofText? f.default),
    ("input_mode", .text f.inputMode.name), ("redacted", .bool f.redacted)]

theorem stored_said (f : Field) : FieldSaid (Value.keyed f.stored) f (some f.inputMode) where
  name := by simp [stored]
  type := by simp [stored, List.lookup_cons]
  nullable := .inl (by simp [stored, List.lookup_cons])
  primaryKey := .inl (by simp [stored, List.lookup_cons])
  unique := .inl (by simp [stored, List.lookup_cons])
  default := .inl (by simp [stored, List.lookup_cons])
  mode := by simp [stored, List.lookup_cons]
  redacted := .inl (by simp [stored, List.lookup_cons])
  others := Check.noOthers_keyed (by simp [stored, fieldKeys])

theorem readField_stored {f g : Field} :
    readField (.ofFields f.stored) = .fits g ↔ g = f ∧ f.Storable :=
  f.stored_said.readField

end Field

/-- The type is given in bytes, and the flag does not say what the suffix says. -/
def Misflagged (entries : List (Value × Value)) : Prop :=
  ∃ b typeName, Value.find? "type" entries = some (.bytes b) ∧
    Text.Utf8.decode? b = some typeName ∧
    Check.partOr entries "nullable" false Check.bool ≠ .fits (splitTypeName typeName).2

variable {entries : List (Value × Value)} {f : Field}

/-- A flag that is given in another way than by a text beside it is compared with the suffix. -/
theorem flagged_iff (h : readField (.map entries) = .fits f) :
    f.nullable = f.type.nullable ↔ ¬ Misflagged entries := by
  obtain ⟨-, htype, hflag, -⟩ := readFieldEntries_eq_fits.mp (readField_map.mp h).2
  obtain ⟨v, hv, hchosen⟩ := Check.part_eq_fits.mp htype
  have hspelled := Check.spelling_of_oneOf hchosen
  unfold readNullable at hflag
  rw [hv] at hflag
  cases v with
  | text typeName =>
      obtain rfl := Option.some.inj hspelled
      rw [← Checked.fits.inj hflag, splitTypeName_name]
      refine iff_of_true rfl ?_
      rintro ⟨b, -, hbytes, -⟩
      cases hv.symm.trans hbytes
  | bytes b =>
      have hmisflagged : Misflagged entries ↔ f.nullable ≠ f.type.nullable := by
        constructor
        · rintro ⟨b', typeName, hb, hdecode, hdiffers⟩ hsame
          cases hv.symm.trans hb
          obtain rfl := Option.some.inj (hdecode.symm.trans hspelled)
          rw [splitTypeName_name, ← hsame] at hdiffers
          exact hdiffers hflag
        · refine fun hne => ⟨b, f.type.name, hv, hspelled, fun hsame => ?_⟩
          rw [splitTypeName_name] at hsame
          exact hne (Checked.fits.inj (hflag.symm.trans hsame))
      rw [hmisflagged, ne_eq, not_not]
  | _ => cases hspelled

theorem storable_iff (h : readField (.map entries) = .fits f) : f.Storable ↔ ¬ Misflagged entries := by
  rw [← flagged_iff h]
  refine ⟨Field.Storable.flagged, fun hflagged => ?_⟩
  obtain ⟨hname, -, -, -, -, hdefault, -⟩ := readFieldEntries_eq_fits.mp (readField_map.mp h).2
  obtain ⟨v, -, hname⟩ := Check.part_eq_fits.mp hname
  obtain ⟨hnamed, hwhole⟩ := Check.named_of_name hname
  refine ⟨hnamed, hwhole, hflagged, ?_⟩
  obtain ⟨-, hnone⟩ | ⟨v, -, hdefault⟩ := Check.partOr_eq_fits.mp hdefault
  · simp [← hnone]
  · exact Check.whole_of_optional hdefault

/-- The field that some entries are read as has one of the base types; and unless its type was given in
bytes that the flag contradicts, its suffix and its flag agree and it is read again from what is stored. -/
def Settles (entries : List (Value × Value)) (f : Field) : Prop :=
  memberTypes.lookup (splitTypeName f.type.name).1 = some f.type.base.memberType ∧
    (f.Canonical ↔ ¬ Misflagged entries) ∧
    ∀ g, readField (.ofFields f.stored) = .fits g ↔ g = f ∧ ¬ Misflagged entries

theorem settles_of_read (h : readField (.map entries) = .fits f) : Settles entries f := by
  refine ⟨lookup_memberTypes f.type, Field.canonical_iff.trans (flagged_iff h), fun g => ?_⟩
  rw [Field.readField_stored, storable_iff h]

/-- Data of a fragment that gives some entries for a field or an alter. -/
def Offers (data : Value) (entries : List (Value × Value)) : Prop :=
  ∃ key ∈ ["fields", "alters"], ∃ items, (data.get? key = some (.list items) ∨
    data.get? key = some (.set items)) ∧ .map entries ∈ items

theorem exists_entries {v : Value} (h : readField v = .fits f) : ∃ entries, v = .map entries := by
  cases v with
  | map entries => exact ⟨entries, rfl⟩
  | _ => cases h

theorem exists_offered {key : String} {fields : List Field} (hkey : key ∈ ["fields", "alters"])
    (h : Check.partOr entries key [] (Check.list readField) = .fits fields) (hf : f ∈ fields) :
    ∃ raw, Offers (.map entries) raw ∧ readField (.map raw) = .fits f := by
  obtain ⟨-, rfl⟩ | ⟨v, hv, hread⟩ := Check.partOr_eq_fits.mp h
  · simp at hf
  · obtain ⟨items, hitems, w, hw, hfits⟩ := Check.exists_item_of_list hread hf
    obtain ⟨raw, rfl⟩ := exists_entries hfits
    refine ⟨raw, ⟨key, hkey, items, ?_, hw⟩, hfits⟩
    exact hitems.imp (fun h => hv.trans (congrArg some h)) fun h => hv.trans (congrArg some h)

/-- Every field and every alter of a fragment was read from entries that its data gives. -/
theorem exists_offered_of_parse {data : Value} {source : Option String} {fragment : Fragment}
    (h : parseFragment data source = .ok fragment) (hf : f ∈ fragment.fields ++ fragment.alters) :
    ∃ raw, Offers data raw ∧ readField (.map raw) = .fits f := by
  unfold parseFragment at h
  split at h
  · next read hread =>
      obtain rfl := Except.ok.inj h
      cases data with
      | map entries =>
          obtain ⟨-, -, hfields, halters, -⟩ := readFragment_map.mp hread
          rcases List.mem_append.mp hf with hf | hf
          · exact exists_offered (by simp) hfields hf
          · exact exists_offered (by simp) halters hf
      | _ => cases hread
  · cases h

/-- A merged field is one of those that the fragments declare, or one of their alters. -/
theorem mem_fragments_of_merge {e : Entry} {m : Merged} (h : e.merge = .ok m)
    (hf : f ∈ m.table.fields) : ∃ fragment ∈ e.fragments, f ∈ fragment.fields ++ fragment.alters := by
  rw [(Entry.amounts_of_merge h).fields] at hf
  obtain ⟨g, hg, rfl⟩ := List.mem_map.mp hf
  cases haltered : lastNamed e.alters g.name with
  | none =>
      obtain ⟨fragment, hfragment, hg⟩ := List.mem_flatMap.mp hg
      exact ⟨fragment, hfragment, List.mem_append_left _ hg⟩
  | some a =>
      have ha := (List.mem_filter.mp (List.mem_of_getLast? haltered)).1
      obtain ⟨fragment, hfragment, ha⟩ := List.mem_flatMap.mp ha
      exact ⟨fragment, hfragment, List.mem_append_right _ ha⟩

/-- A field is settled, read from data or of a table merged from such data: the base type is known, the
suffix says what the flag says and the field comes back from what is stored of it, unless its type was
given in bytes that the flag contradicts; then neither holds. -/
theorem fields_settled (f : Field) :
    (∀ entries, readField (.map entries) = .fits f → Settles entries f) ∧
    ∀ (raw : List (Value × Option String)) (e : Entry) (m : Merged),
      List.Forall₂ (fun r fragment => parseFragment r.1 r.2 = .ok fragment) raw e.fragments →
      e.merge = .ok m → f ∈ m.table.fields → ∃ r ∈ raw, ∃ entries, Offers r.1 entries ∧
        readField (.map entries) = .fits f ∧ Settles entries f := by
  refine ⟨fun entries => settles_of_read, fun raw e m hparsed hmerge hf => ?_⟩
  obtain ⟨fragment, hfragment, hf⟩ := mem_fragments_of_merge hmerge hf
  obtain ⟨r, hr, hparse⟩ := exists_left_of_paired hparsed hfragment
  obtain ⟨entries, hoffers, hread⟩ := exists_offered_of_parse hparse hf
  exact ⟨r, hr, entries, hoffers, hread, settles_of_read hread⟩

def requiredTitle : List (Value × Value) :=
  Value.keyed [("name", .text "title"), ("type", .text "text")]

/-- A title that may be left out, with a flag that says so too. -/
def optionalTitle : List (Value × Value) :=
  Value.keyed [("name", .text "title"), ("type", .text "text_optional"), ("nullable", .int 1),
    ("input_mode", .text "optional")]

def titleField : Field :=
  { name := "title", type := ⟨.text, true⟩, inputMode := .optional }

/-- Posts with a title, and what makes it optional. -/
def titledPosts : List (Value × Option String) :=
  [(.ofFields [("table_name", .text "posts"), ("fields", .list [.map requiredTitle])], some "a.json"),
    (.ofFields [("table_name", .text "posts"), ("alters", .list [.map optionalTitle])], none)]

def titledEntry : Entry :=
  { table := "posts"
    fragments := [{ table := "posts", fields := [{ name := "title", type := ⟨.text, false⟩ }]
                    source := some "a.json" },
      { table := "posts", alters := [titleField] }] }

/-- The title that posts end up with was read from the alter, and comes back from what is stored. -/
theorem fields_settled_altered :
    Settles optionalTitle titleField ∧ ∃ r ∈ titledPosts, ∃ entries, Offers r.1 entries ∧
      readField (.map entries) = .fits titleField ∧ Settles entries titleField := by
  have hread : readField (.map optionalTitle) = .fits titleField :=
    Checked.value?_eq_some.mp (by decide +kernel)
  have hparsed : List.Forall₂ (fun r fragment => parseFragment r.1 r.2 = .ok fragment) titledPosts
      titledEntry.fragments := by
    refine .cons ?_ (.cons ?_ .nil) <;> decide +kernel
  obtain ⟨hfields, hmerged⟩ := fields_settled titleField
  exact ⟨hfields _ hread, hmerged _ _ _ hparsed rfl (by decide +kernel)⟩

/-- The type of a title in bytes, and no flag. -/
def byteTitle : List (Value × Value) :=
  Value.keyed [("name", .text "title"), ("type", .bytes "text_optional".toUTF8)]

/-- It is stored as an optional type with a flag that says no, and cannot be read again from that. -/
theorem byte_typed_unsettled : ∃ f, readField (.map byteTitle) = .fits f ∧
    optionalSuffix.toList <:+ f.type.name.toList ∧ f.nullable = false ∧
      ∀ g, readField (.ofFields f.stored) ≠ .fits g := by
  have hread : readField (.map byteTitle) =
      .fits { name := "title", type := ⟨.text, true⟩, nullable := false } :=
    Checked.value?_eq_some.mp (by decide +kernel)
  refine ⟨_, hread, by decide, rfl, fun g hg => ?_⟩
  exact absurd (Field.readField_stored.mp hg).2.flagged (by decide)

end TableLoom.Schema
