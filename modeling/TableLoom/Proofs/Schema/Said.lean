import TableLoom.Proofs.Schema.Parts

/-!
What is read from entries that say one thing for each part, or leave out what is customary. Such a field,
index, relationship or fragment is read as what its entries say, exactly if it can be stored.
-/

namespace TableLoom.Schema

open Check (Checked Given choice_given flag_given given_text list_given name_given nameOr_given
  text_given)

theorem oneOf_type {t u : FieldType} :
    Check.oneOf FieldType.all FieldType.name (.text t.name) = .fits u ↔ u = t := by
  obtain ⟨b, n⟩ := t
  exact Check.oneOf_name (by cases b <;> cases n <;> decide) (by cases b <;> cases n <;> decide)

theorem splitTypeName_name (t : FieldType) : (splitTypeName t.name).2 = t.nullable := by
  obtain ⟨b, n⟩ := t
  cases b <;> cases n <;> decide

variable {entries : List (Value × Value)} {key : String}

theorem cardinality_given {c d : Cardinality} (h : Given entries key (.text c.name) (c = .manyToOne)) :
    Check.partOr entries key .manyToOne (Check.oneOf Cardinality.all Cardinality.name) = .fits d ↔
      d = c :=
  choice_given
    (fun _ => Check.oneOf_name (by cases c <;> decide) (by cases c <;> decide)) h

theorem action_given {a b : Action} (h : Given entries key (.text a.name) (a = .noAction)) :
    Check.partOr entries key .noAction (Check.oneOf Action.all Action.name) = .fits b ↔ b = a :=
  choice_given
    (fun _ => Check.oneOf_name (by cases a <;> decide) (by cases a <;> decide)) h

/-- The texts of a field can be stored, and its flag says what its type says. -/
structure Field.Storable (f : Field) : Prop where
  named : f.name ≠ ""
  name_whole : Text.hasHalf f.name = false
  flagged : f.nullable = f.type.nullable
  default_whole : ∀ d ∈ f.default, Text.hasHalf d = false

/-- The mode of a field that gives none. -/
def Field.customaryMode (f : Field) : InputMode :=
  if f.primaryKey || f.default.isSome then .autoGenerated else .required

/-- What the entries of a field say of it, the mode only if there is one here. -/
structure FieldSaid (entries : List (Value × Value)) (f : Field) (mode : Option InputMode) : Prop where
  name : Value.find? "name" entries = some (.text f.name)
  type : Value.find? "type" entries = some (.text f.type.name)
  nullable : Given entries "nullable" (.bool f.nullable) (f.nullable = f.type.nullable)
  primaryKey : Given entries "primary_key" (.bool f.primaryKey) (f.primaryKey = false)
  unique : Given entries "unique" (.bool f.unique) (f.unique = false)
  default : Given entries "default" (.ofText? f.default) (f.default = none)
  mode : Value.find? "input_mode" entries = mode.map (.text ·.name)
  redacted : Given entries "redacted" (.bool f.redacted) (f.redacted = false)
  others : Check.noOthers fieldKeys entries = .fits ()

theorem FieldSaid.derivedMode {f : Field} {mode : Option InputMode} (h : FieldSaid entries f mode) :
    derivedMode entries = f.customaryMode := by
  have hkey : ((Value.find? "primary_key" entries).getD .null).truthy = f.primaryKey := by
    obtain h | ⟨h, hkey⟩ := h.primaryKey
    · simp [h, Value.truthy]
    · simp [h, hkey, Value.truthy]
  unfold Schema.derivedMode Field.customaryMode
  rw [hkey]
  obtain h | ⟨h, hnone⟩ := h.default
  · rw [h]
    cases f.default <;> rfl
  · rw [h, hnone]
    rfl

theorem FieldSaid.readMode {f : Field} {mode : Option InputMode} {m : InputMode}
    (h : FieldSaid entries f mode) :
    readMode entries = .fits m ↔ m = mode.getD f.customaryMode := by
  unfold Schema.readMode
  rw [h.mode]
  cases mode with
  | none => simp [h.derivedMode, eq_comm]
  | some m' =>
      have hread : Check.oneOf InputMode.all InputMode.name (.text m'.name) = .fits m ↔ m = m' :=
        Check.oneOf_name (by cases m' <;> decide) (by cases m' <;> decide)
      simpa using hread

theorem FieldSaid.readField {f g : Field} {mode : Option InputMode} (h : FieldSaid entries f mode) :
    readField (.map entries) = .fits g ↔
      g = { f with inputMode := mode.getD f.customaryMode } ∧ f.Storable := by
  have hcheck : checkNullable entries = .fits () ↔ f.nullable = f.type.nullable := by
    unfold checkNullable
    rw [h.type]
    obtain h | ⟨h, hsame⟩ := h.nullable
    · simp [h, splitTypeName_name, Value.truthy]
    · simp [h, hsame]
  have hnullable : readNullable entries = .fits g.nullable ↔ g.nullable = f.type.nullable := by
    unfold readNullable
    rw [h.type]
    simp [splitTypeName_name, eq_comm]
  have htype : Check.part entries "type" (Check.oneOf FieldType.all FieldType.name) = .fits g.type ↔
      g.type = f.type := by
    rw [Check.part_found h.type, oneOf_type]
  rw [readField_map, readFieldEntries_eq_fits, hcheck, name_given h.name, htype, hnullable,
    flag_given h.primaryKey, flag_given h.unique, text_given h.default, h.readMode,
    flag_given h.redacted]
  simp only [h.others, and_true]
  constructor
  · rintro ⟨hflagged, ⟨hname, hnamed, hwhole⟩, htype, hnullable, hkey, hunique, ⟨hdefault, hdefaults⟩,
      hmode, hredacted⟩
    refine ⟨?_, ⟨hnamed, hwhole, hflagged, hdefaults⟩⟩
    obtain ⟨⟩ := g
    simp_all
  · rintro ⟨rfl, ⟨hnamed, hwhole, hflagged, hdefaults⟩⟩
    exact ⟨hflagged, ⟨rfl, hnamed, hwhole⟩, rfl, hflagged, rfl, rfl, ⟨rfl, hdefaults⟩, rfl, rfl⟩

/-- An index has a name that can be stored, and columns of which none comes twice. -/
structure Index.Storable (i : Index) : Prop where
  named : i.name ≠ ""
  name_whole : Text.hasHalf i.name = false
  columns_whole : ∀ c ∈ i.columns, Text.hasHalf c = false
  columns_some : i.columns ≠ []
  columns_apart : i.columns.eraseDups.length = i.columns.length

theorem readIndexColumns_texts {columns as : List String} :
    readIndexColumns (.texts columns) = .fits as ↔
      as = columns ∧ (∀ c ∈ columns, Text.hasHalf c = false) ∧ columns ≠ [] ∧
        columns.eraseDups.length = columns.length := by
  have hlist : ∀ as', Check.list Check.text (.texts columns) = .fits as' ↔
      as' = columns ∧ ∀ c ∈ columns, Text.hasHalf c = false := fun as' => by
    have htext : ∀ c s : String, Check.text (.text c) = .fits s ↔ s = id c ∧ Text.hasHalf c = false :=
      fun _ _ => Check.text_text
    rw [Value.texts, Check.list_map_eq_fits htext, List.map_id]
  simp only [readIndexColumns, Checked.andThen_eq_fits, hlist]
  constructor
  · rintro ⟨_, ⟨rfl, hwhole⟩, h⟩
    split at h
    · cases h
    · next hempty =>
        split at h
        · cases h
        · next hapart =>
            exact ⟨(Checked.fits.inj h).symm, hwhole, by simpa using hempty, by simpa using hapart⟩
  · rintro ⟨rfl, hwhole, hempty, hapart⟩
    exact ⟨_, ⟨rfl, hwhole⟩, by simp [hempty, hapart]⟩

theorem readIndex_said {i j : Index} (hname : Value.find? "name" entries = some (.text i.name))
    (hcolumns : Value.find? "columns" entries = some (.texts i.columns))
    (hunique : Given entries "unique" (.bool i.unique) (i.unique = false))
    (hothers : Check.noOthers ["name", "columns", "unique"] entries = .fits ()) :
    readIndex (.map entries) = .fits j ↔ j = i ∧ i.Storable := by
  have hread : Check.part entries "columns" readIndexColumns = .fits j.columns ↔ _ :=
    (Check.part_found hcolumns).trans readIndexColumns_texts
  rw [readIndex_map, name_given hname, hread, flag_given hunique, hothers]
  constructor
  · rintro ⟨⟨hname, hnamed, hwhole⟩, ⟨hcolumns, hcwhole, hsome, hapart⟩, hunique, -⟩
    refine ⟨?_, ⟨hnamed, hwhole, hcwhole, hsome, hapart⟩⟩
    obtain ⟨⟩ := j
    simp_all
  · rintro ⟨rfl, ⟨hnamed, hwhole, hcwhole, hsome, hapart⟩⟩
    exact ⟨⟨rfl, hnamed, hwhole⟩, ⟨rfl, hcwhole, hsome, hapart⟩, rfl, rfl⟩

/-- The names in a relationship can be stored. -/
structure Relationship.Storable (r : Relationship) : Prop where
  name_whole : ∀ n ∈ r.name, Text.hasHalf n = false
  column_named : r.column ≠ ""
  column_whole : Text.hasHalf r.column = false
  table_named : r.references.table ≠ ""
  table_whole : Text.hasHalf r.references.table = false
  target_named : r.references.column ≠ ""
  target_whole : Text.hasHalf r.references.column = false

/-- What the entries of a relationship say of it. -/
structure RelationshipSaid (entries far : List (Value × Value)) (r : Relationship) : Prop where
  name : Value.find? "name" entries = r.name.map .text
  column : Value.find? "column" entries = some (.text r.column)
  references : Value.find? "references" entries = some (.map far)
  table : Value.find? "table" far = some (.text r.references.table)
  target : Given far "column" (.text r.references.column) (r.references.column = "id")
  farOthers : Check.noOthers ["table", "column"] far = .fits ()
  cardinality : Given entries "type" (.text r.cardinality.name) (r.cardinality = .manyToOne)
  longKey : Value.find? "relationship_type" entries = none
  onDelete : Given entries "on_delete" (.text r.onDelete.name) (r.onDelete = .noAction)
  onUpdate : Given entries "on_update" (.text r.onUpdate.name) (r.onUpdate = .noAction)
  others : Check.noOthers ["name", "column", "references", cardinalityKey entries, "on_delete",
    "on_update"] entries = .fits ()

theorem RelationshipSaid.readReference {far : List (Value × Value)} {r : Relationship}
    {reference : Reference} (h : RelationshipSaid entries far r) :
    readReference (.map far) = .fits reference ↔ reference = r.references ∧
      (r.references.table ≠ "" ∧ Text.hasHalf r.references.table = false) ∧
      r.references.column ≠ "" ∧ Text.hasHalf r.references.column = false := by
  rw [readReference_map, name_given h.table, nameOr_given h.target (by decide), h.farOthers]
  constructor
  · rintro ⟨⟨htable, htables⟩, ⟨hcolumn, hcolumns⟩, -⟩
    refine ⟨?_, htables, hcolumns⟩
    obtain ⟨⟩ := reference
    simp_all
  · rintro ⟨rfl, htables, hcolumns⟩
    exact ⟨⟨rfl, htables⟩, ⟨rfl, hcolumns⟩, rfl⟩

theorem RelationshipSaid.readRelationship {far : List (Value × Value)} {r s : Relationship}
    (h : RelationshipSaid entries far r) :
    readRelationship (.map entries) = .fits s ↔ s = r ∧ r.Storable := by
  have hcardinality : Check.partOr entries (cardinalityKey entries) .manyToOne
      (Check.oneOf Cardinality.all Cardinality.name) = .fits s.cardinality ↔
        s.cardinality = r.cardinality := by
    unfold cardinalityKey
    split
    · exact cardinality_given h.cardinality
    · next htype =>
        obtain hgiven | ⟨-, hcustomary⟩ := h.cardinality
        · simp [hgiven] at htype
        · rw [Check.partOr_absent h.longKey, hcustomary]
  rw [readRelationship_map, text_given (given_text h.name), name_given h.column, Check.part_found h.references,
    h.readReference, hcardinality, action_given h.onDelete, action_given h.onUpdate, h.others]
  constructor
  · rintro ⟨⟨hname, hnames⟩, ⟨hcolumn, hcolumns⟩, ⟨hfar, htables, htargets⟩, hcard, hdelete, hupdate, -⟩
    refine ⟨?_, ⟨hnames, hcolumns.1, hcolumns.2, htables.1, htables.2, htargets.1, htargets.2⟩⟩
    obtain ⟨⟩ := s
    simp_all
  · rintro ⟨rfl, ⟨hnames, hcolumn, hcolumns, htable, htables, htarget, htargets⟩⟩
    exact ⟨⟨rfl, hnames⟩, ⟨rfl, hcolumn, hcolumns⟩, ⟨rfl, ⟨htable, htables⟩, htarget, htargets⟩, rfl, rfl,
      rfl, rfl⟩

/-- All that is said in a fragment can be stored. -/
structure Fragment.Storable (f : Fragment) : Prop where
  named : f.table ≠ ""
  table_whole : Text.hasHalf f.table = false
  struct_whole : ∀ s ∈ f.structName, Text.hasHalf s = false
  fields : ∀ g ∈ f.fields, g.Storable
  alters : ∀ g ∈ f.alters, g.Storable
  indexes : ∀ i ∈ f.indexes, i.Storable
  relationships : ∀ r ∈ f.relationships, r.Storable

/-- A list is given under a key, and read as some items exactly if all of them are good. -/
def ListSaid {α : Type} (entries : List (Value × Value)) (key : String) (read : Value → Checked α)
    (good : α → Prop) (items : List α) : Prop :=
  ∀ as, Check.partOr entries key [] (Check.list read) = .fits as ↔ as = items ∧ ∀ a ∈ items, good a

theorem listSaid_map {α β : Type} {data : β → Value} {read : Value → Checked α} {made : β → α}
    {good : α → Prop} (reads : ∀ x a, read (data x) = .fits a ↔ a = made x ∧ good (made x))
    {xs : List β} (h : Given entries key (.list (xs.map data)) (xs = [])) :
    ListSaid entries key read good (xs.map made) := fun as => by
  rw [list_given reads h, List.forall_mem_map]

theorem listSaid_self {α : Type} {data : α → Value} {read : Value → Checked α} {good : α → Prop}
    (reads : ∀ x a, read (data x) = .fits a ↔ a = x ∧ good x) {xs : List α}
    (h : Given entries key (.list (xs.map data)) (xs = [])) : ListSaid entries key read good xs := by
  have hreads : ∀ x a, read (data x) = .fits a ↔ a = id x ∧ good (id x) := reads
  simpa using listSaid_map hreads h

theorem listSaid_absent {α : Type} {read : Value → Checked α} {good : α → Prop}
    (h : Value.find? key entries = none) : ListSaid entries key read good [] := fun as => by
  rw [Check.partOr_absent h, and_iff_left (List.forall_mem_nil good)]

/-- What the entries of a fragment say of it, but for its source. -/
structure FragmentSaid (entries : List (Value × Value)) (f : Fragment) : Prop where
  table : Value.find? "table_name" entries = some (.text f.table)
  structName : Value.find? "struct_name" entries = f.structName.map .text
  fields : ListSaid entries "fields" readField Field.Storable f.fields
  alters : ListSaid entries "alters" readField Field.Storable f.alters
  indexes : ListSaid entries "indexes" readIndex Index.Storable f.indexes
  relationships : ListSaid entries "relationships" readRelationship Relationship.Storable f.relationships
  source : Value.find? "source" entries = none
  others : Check.noOthers ["table_name", "struct_name", "fields", "alters", "indexes", "relationships",
    "source"] entries = .fits ()

theorem FragmentSaid.readFragment {f g : Fragment} (h : FragmentSaid entries f) :
    readFragment (.map entries) = .fits g ↔ g = { f with source := none } ∧ f.Storable := by
  rw [readFragment_map, name_given h.table, text_given (given_text h.structName), h.fields, h.alters, h.indexes,
    h.relationships, Check.partOr_absent h.source, h.others]
  constructor
  · rintro ⟨⟨htable, hnamed, hwhole⟩, ⟨hstruct, hstructs⟩, ⟨hfields, hfs⟩, ⟨halters, has⟩,
      ⟨hindexes, his⟩, ⟨hrelationships, hrs⟩, hsource, -⟩
    refine ⟨?_, ⟨hnamed, hwhole, hstructs, hfs, has, his, hrs⟩⟩
    obtain ⟨⟩ := g
    simp_all
  · rintro ⟨rfl, ⟨hnamed, hwhole, hstructs, hfs, has, his, hrs⟩⟩
    exact ⟨⟨rfl, hnamed, hwhole⟩, ⟨rfl, hstructs⟩, ⟨rfl, hfs⟩, ⟨rfl, has⟩, ⟨rfl, his⟩, ⟨rfl, hrs⟩, rfl, rfl⟩

/-- A fragment comes out of its entries, and with the source that these came from. -/
theorem FragmentSaid.parseFragment {f g : Fragment} {source : Option String}
    (h : FragmentSaid entries f) : parseFragment (.map entries) source = .ok g ↔
      g = { f with source } ∧ f.Storable := by
  have hread := fun g => h.readFragment (g := g)
  unfold Schema.parseFragment
  cases hfragment : Schema.readFragment (.map entries) with
  | fits g' =>
      obtain ⟨rfl, hstorable⟩ := (hread g').mp hfragment
      simp [hstorable, eq_comm]
  | flawed is =>
      have hunfit : ¬ f.Storable := fun hstorable => by
        have hfits := (hread _).mpr ⟨rfl, hstorable⟩
        rw [hfragment] at hfits
        cases hfits
      simp [hunfit]

end TableLoom.Schema
