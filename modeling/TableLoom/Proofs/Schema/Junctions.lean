import TableLoom.Proofs.Schema.Acceptance
import TableLoom.Proofs.Text.Split

/-!
What the rules ask of a table that stands between two others: that it holds a key to the one side and a key
to another side. A relationship and the name of a column both tell of a key, and each side is looked for on
its own, so that a column may be taken for the keys to both.
-/

namespace TableLoom.Schema

namespace Table

theorem hasField_iff {t : Table} {name : String} : t.hasField name = true ↔ ∃ f ∈ t.fields, f.name = name := by
  refine ⟨exists_of_hasField, fun ⟨f, hf, hname⟩ => ?_⟩
  rw [hasField, field?, List.find?_isSome]
  exact ⟨f, List.mem_reverse.mpr hf, by simpa using hname⟩

/-- The column that customarily refers to a table. -/
def customaryKey (target : String) : String :=
  Naming.singular target ++ "_id"

/-- A relationship leads from a column to another table. -/
structure Leads (t : Table) (column : String) (rel : Relationship) : Prop where
  mem : rel ∈ t.relationships
  forward : rel.isReverse = false
  start : rel.column = column

/-- A column refers to some table, by a relationship or by its name. -/
def IsKey (t : Table) (column : String) : Prop :=
  (∃ rel, t.Leads column rel) ∨ t.hasField column = true ∧ Text.endsWith column "_id" = true

/-- A column refers to the target. -/
def IsKeyTo (t : Table) (target column : String) : Prop :=
  (∃ rel, t.Leads column rel ∧ rel.references.table = target) ∨
    t.hasField column = true ∧ column = customaryKey target

/-- A column refers to another table than the owner. -/
def IsKeyElsewhere (t : Table) (owner column : String) : Prop :=
  (∃ rel, t.Leads column rel ∧ rel.references.table ≠ owner) ∨
    t.hasField column = true ∧ Text.endsWith column "_id" = true ∧ column ≠ customaryKey owner

variable {t j : Table} {known : Known} {rel : Relationship} {target owner column : String}

/-- Every key leads to the one side or to another one. -/
theorem isKey_iff (owner : String) : j.IsKey column ↔ j.IsKeyTo owner column ∨ j.IsKeyElsewhere owner column := by
  constructor
  · rintro (⟨rel, hleads⟩ | ⟨hfield, hends⟩)
    · by_cases htable : rel.references.table = owner
      · exact .inl (.inl ⟨rel, hleads, htable⟩)
      · exact .inr (.inl ⟨rel, hleads, htable⟩)
    · by_cases hcustomary : column = customaryKey owner
      · exact .inl (.inr ⟨hfield, hcustomary⟩)
      · exact .inr (.inr ⟨hfield, hends, hcustomary⟩)
  · rintro ((⟨rel, hleads, -⟩ | ⟨hfield, rfl⟩) | (⟨rel, hleads, -⟩ | ⟨hfield, hends, -⟩))
    · exact .inl ⟨rel, hleads⟩
    · exact .inr ⟨hfield, Text.endsWith_append _ _⟩
    · exact .inl ⟨rel, hleads⟩
    · exact .inr ⟨hfield, hends⟩

theorem exists_isKeyTo : Rules.refersTo j target = true ↔ ∃ column, j.IsKeyTo target column := by
  simp only [Rules.refersTo, Bool.or_eq_true, List.any_eq_true, Bool.and_eq_true, Bool.not_eq_true',
    beq_iff_eq]
  constructor
  · rintro (hfield | ⟨rel, hrel, hforward, htable⟩)
    · exact ⟨_, .inr ⟨hfield, rfl⟩⟩
    · exact ⟨rel.column, .inl ⟨rel, ⟨hrel, hforward, rfl⟩, htable⟩⟩
  · rintro ⟨column, ⟨rel, hleads, htable⟩ | ⟨hfield, rfl⟩⟩
    · exact .inr ⟨rel, hleads.mem, hleads.forward, htable⟩
    · exact .inl hfield

theorem exists_isKeyElsewhere :
    Rules.refersElsewhere j owner = true ↔ ∃ column, j.IsKeyElsewhere owner column := by
  simp only [Rules.refersElsewhere, Bool.or_eq_true, List.any_eq_true, Bool.and_eq_true,
    Bool.not_eq_true', bne_iff_ne]
  constructor
  · rintro (⟨rel, hrel, hforward, htable⟩ | ⟨f, hf, hends, hother⟩)
    · exact ⟨rel.column, .inl ⟨rel, ⟨hrel, hforward, rfl⟩, htable⟩⟩
    · exact ⟨f.name, .inr ⟨hasField_iff.mpr ⟨f, hf, rfl⟩, hends, hother⟩⟩
  · rintro ⟨column, ⟨rel, hleads, htable⟩ | ⟨hfield, hends, hother⟩⟩
    · exact .inl ⟨rel, hleads.mem, hleads.forward, htable⟩
    · obtain ⟨f, hf, rfl⟩ := hasField_iff.mp hfield
      exact .inr ⟨f, hf, hends, hother⟩

theorem isJunction_iff : Rules.isJunction j owner = true ↔
    (∃ c, j.IsKeyTo owner c) ∧ ∃ d, j.IsKeyElsewhere owner d := by
  rw [Rules.isJunction, Bool.and_eq_true, exists_isKeyTo, exists_isKeyElsewhere]

/-- Of two different keys one can be spared, if a third one is a key to both sides. -/
theorem exists_apart {c d : String} (hc : j.IsKeyTo owner c) (hd : j.IsKeyElsewhere owner d) :
    (∃ c d, c ≠ d ∧ j.IsKeyTo owner c ∧ j.IsKeyElsewhere owner d) ↔
      ∃ c d, c ≠ d ∧ j.IsKey c ∧ j.IsKey d := by
  constructor
  · rintro ⟨c, d, hne, hto, helsewhere⟩
    exact ⟨c, d, hne, (isKey_iff owner).mpr (.inl hto), (isKey_iff owner).mpr (.inr helsewhere)⟩
  · rintro ⟨a, b, hne, ha, hb⟩
    by_cases hsame : c = d
    · subst hsame
      obtain ⟨e, he, hother⟩ : ∃ e, j.IsKey e ∧ e ≠ c := by
        by_cases hfirst : a = c
        · exact ⟨b, hb, hfirst ▸ hne.symm⟩
        · exact ⟨a, ha, hfirst⟩
      obtain hto | helsewhere := (isKey_iff owner).mp he
      · exact ⟨e, c, hother, hto, hd⟩
      · exact ⟨c, e, hother.symm, hc, helsewhere⟩
    · exact ⟨c, d, hsame, hc, hd⟩

/-- The keys of a table without an error are columns that it has. -/
theorem Passes.hasField_key (h : j.Passes known) (key : j.IsKey column) : j.hasField column = true := by
  obtain ⟨rel, hleads⟩ | ⟨hfield, -⟩ := key
  · exact hleads.start ▸ (h.relationships rel hleads.mem).1
  · exact hfield

end Table

theorem Known.has_of_table? {known : Known} {name : String} {t : Table} (h : known.table? name = some t) :
    known.has name = true := by
  unfold table? at h
  cases hlookup : known.lookup name with
  | none =>
      rw [hlookup] at h
      cases h
  | some found =>
      obtain ⟨before, after, hknown, -⟩ := List.lookup_eq_some_iff.mp hlookup
      simp [has, hknown]

namespace Rules

variable {t : Table} {known : Known} {members : List String} {rel : Relationship}

/-- A relationship is reported for its junction. -/
def Unjoined (t : Table) (known : Known) (rel : Relationship) : Prop :=
  rel.cardinality = .manyToMany ∧
    ∃ j, known.table? rel.references.table = some j ∧ isJunction j t.name = false

theorem noJunction_mem_oneRelationship {name column target : String} :
    .noJunction name column target ∈ oneRelationship t known members rel ↔
      (name = t.name ∧ column = rel.column ∧ target = rel.references.table) ∧ Unjoined t known rel := by
  have hcolumn : .noJunction name column target ∉
      when (!t.hasField rel.column) (.unknownColumn t.name rel.column rel.references.table) := by
    simp [mem_when]
  have hmember : .noJunction name column target ∉
      (if !isName rel.member then [.memberName t.name rel.column rel.references.table rel.member]
      else when (members.contains rel.member)
        (.repeatedMember t.name rel.column rel.references.table rel.member)) := by
    split <;> simp [mem_when]
  simp only [oneRelationship, List.mem_append, hcolumn, hmember, false_or]
  unfold Unjoined
  split
  · next j hmany hfound =>
      simp only [mem_when, hmany, hfound, Violation.noJunction.injEq, Option.some.injEq, exists_eq_left',
        Bool.not_eq_true', true_and, and_comm]
  · next hother =>
      simp only [List.not_mem_nil, false_iff]
      rintro ⟨-, hmany, j, hfound, -⟩
      exact hother j hmany hfound

theorem noJunction_mem_relationships {name column target : String} :
    .noJunction name column target ∈ relationships t known ↔
      ∃ rel ∈ t.relationships, (name = t.name ∧ column = rel.column ∧ target = rel.references.table) ∧
        Unjoined t known rel := by
  have hscan (members : List String) (rels : List Relationship) :
      .noJunction name column target ∈ scanRelationships t known members rels ↔
        ∃ rel ∈ rels, (name = t.name ∧ column = rel.column ∧ target = rel.references.table) ∧
          Unjoined t known rel := by
    induction rels generalizing members with
    | nil => simp [scanRelationships]
    | cons rel rest ih =>
        rw [scanRelationships]
        split
        · rw [List.mem_append, noJunction_mem_oneRelationship, ih, List.exists_mem_cons_iff]
        · next hunknown =>
            have hnone : ¬ Unjoined t known rel := by
              rintro ⟨-, j, hfound, -⟩
              exact hunknown (Known.has_of_table? hfound)
            simp [ih, hnone]
  exact hscan _ _

end Rules

theorem Table.Passes.isJunction {t j : Table} {known : Known} (h : t.Passes known) {rel : Relationship}
    (hrel : rel ∈ t.relationships) (many : rel.cardinality = .manyToMany)
    (found : known.table? rel.references.table = some j) : Rules.isJunction j t.name = true := by
  by_contra hnone
  have hmem := Rules.noJunction_mem_relationships.mpr
    ⟨rel, hrel, ⟨rfl, rfl, rfl⟩, many, j, found, by simpa using hnone⟩
  exact h.rule (r := Rules.relationships) (by simp [Rules.all]) _ hmem rfl

/-- A junction is accepted exactly if it holds a key to the one side and a key elsewhere. These are two
different columns exactly if it has two keys at all: the only key of a table may be taken for both. -/
theorem junction_keyed {t j : Table} {known : Known} {rel : Relationship} (mem : rel ∈ t.relationships)
    (many : rel.cardinality = .manyToMany) (merged : known.table? rel.references.table = some j) :
    (.noJunction t.name rel.column rel.references.table ∉ Rules.relationships t known ↔
      (∃ c, j.IsKeyTo t.name c) ∧ ∃ d, j.IsKeyElsewhere t.name d) ∧
    (.noJunction t.name rel.column rel.references.table ∉ Rules.relationships t known →
      ((∃ c d, c ≠ d ∧ j.IsKeyTo t.name c ∧ j.IsKeyElsewhere t.name d) ↔
        ∃ c d, c ≠ d ∧ j.IsKey c ∧ j.IsKey d)) ∧
    (j.Passes known → ∀ c, j.IsKey c → j.hasField c = true) := by
  have haccepted : .noJunction t.name rel.column rel.references.table ∉ Rules.relationships t known ↔
      (∃ c, j.IsKeyTo t.name c) ∧ ∃ d, j.IsKeyElsewhere t.name d := by
    rw [← Table.isJunction_iff, Rules.noJunction_mem_relationships]
    constructor
    · intro haccepted
      by_contra hnone
      exact haccepted ⟨rel, mem, ⟨rfl, rfl, rfl⟩, many, j, merged, by simpa using hnone⟩
    · rintro hjoins ⟨rel', -, ⟨-, -, htarget⟩, -, j', hfound, hnone⟩
      obtain rfl : j' = j := Option.some.inj (hfound.symm.trans (htarget ▸ merged))
      rw [hjoins] at hnone
      cases hnone
  refine ⟨haccepted, fun h => ?_, fun h c hc => h.hasField_key hc⟩
  obtain ⟨⟨c, hc⟩, d, hd⟩ := haccepted.mp h
  exact Table.exists_apart hc hd

def idField : Field :=
  { name := "id", type := ⟨.i64, false⟩, primaryKey := true, inputMode := .autoGenerated }

def taggedPosts : Table :=
  { name := "posts", fields := [idField]
    relationships := [{ column := "id", references := ⟨"post_tags", "id"⟩, cardinality := .manyToMany }] }

/-- A relationship tells of the one key, the name of its column of the other. -/
def postTags : Table :=
  { name := "post_tags"
    fields := [{ name := "article_id", type := ⟨.i64, false⟩ }, { name := "tag_id", type := ⟨.i64, false⟩ }]
    relationships := [{ column := "article_id", references := ⟨"posts", "id"⟩ }] }

theorem junction_keyed_tags :
    .noJunction "posts" "id" "post_tags" ∉
        Rules.relationships taggedPosts [("posts", some taggedPosts), ("post_tags", some postTags)] ∧
      ∃ c d, c ≠ d ∧ postTags.IsKeyTo "posts" c ∧ postTags.IsKeyElsewhere "posts" d := by
  obtain ⟨-, hkeys, -⟩ := @junction_keyed taggedPosts postTags
    [("posts", some taggedPosts), ("post_tags", some postTags)]
    { column := "id", references := ⟨"post_tags", "id"⟩, cardinality := .manyToMany } (by decide) rfl rfl
  have haccepted : .noJunction "posts" "id" "post_tags" ∉
      Rules.relationships taggedPosts [("posts", some taggedPosts), ("post_tags", some postTags)] := by
    decide +kernel
  refine ⟨haccepted, (hkeys haccepted).mpr ⟨"article_id", "tag_id", by decide, ?_, ?_⟩⟩
  · exact .inr ⟨by decide, by decide⟩
  · exact .inr ⟨by decide, by decide⟩

def groups : Table :=
  { name := "groups", fields := [idField]
    relationships := [{ column := "id", references := ⟨"members", "id"⟩, cardinality := .manyToMany }] }

/-- The only key leads back to the groups, under a name that is not customary for them. -/
def members : Table :=
  { name := "members", fields := [idField, { name := "owner_id", type := ⟨.i64, false⟩ }]
    relationships := [{ column := "owner_id", references := ⟨"groups", "id"⟩ }] }

/-- Nothing is wrong with two tables of which the junction has one key only, and so none to another side. -/
theorem only_key_counts_twice :
    let known : Known := [("groups", some groups), ("members", some members)]
    groups.violations known = [] ∧ members.violations known = [] ∧
      ¬ ∃ c d, c ≠ d ∧ members.IsKeyTo "groups" c ∧ members.IsKeyElsewhere "groups" d := by
  refine ⟨by decide +kernel, by decide +kernel, ?_⟩
  rintro ⟨c, d, hne, hto, helsewhere⟩
  have hone (e : String) (h : members.IsKey e) : e = "owner_id" := by
    obtain ⟨rel, hmem, -, rfl⟩ | ⟨hfield, hends⟩ := h
    · rw [List.mem_singleton.mp hmem]
    · obtain ⟨f, hf, rfl⟩ := Table.hasField_iff.mp hfield
      obtain rfl | hf := List.mem_cons.mp hf
      · cases hends
      · rw [List.mem_singleton.mp hf]
  have hc := hone c ((Table.isKey_iff "groups").mpr (.inl hto))
  have hd := hone d ((Table.isKey_iff "groups").mpr (.inr helsewhere))
  exact hne (hc.trans hd.symm)

end TableLoom.Schema
