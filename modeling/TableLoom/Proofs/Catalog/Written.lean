import TableLoom.Proofs.Catalog.Pulled
import TableLoom.Proofs.Traversal
import TableLoom.Yaml.Reader

/-!
Fragments and their files. A file leaves out what is customary, and a field that gives no mode is taken
to be filled in by the database when it is a key or has a default. So a fragment comes back from its file
where no such field is asked for; and no column is asked for that is a key or has a default.
-/

namespace TableLoom

namespace Schema

/-- No field is asked for that would be taken to be filled in if it gave no mode. -/
def Field.Settled (f : Field) : Prop :=
  f.inputMode = .required → f.primaryKey = false ∧ f.default = none

/-- A field as it comes back when a flag that says no is left out: the type stands in for the flag. -/
def Field.reflagged (f : Field) : Field :=
  { f with nullable := f.nullable || f.type.nullable }

/-- A field as it comes back when the mode of one that is asked for is left out too. -/
def Field.reread (f : Field) : Field :=
  { f.reflagged with inputMode := if f.inputMode = .required then f.customaryMode else f.inputMode }

theorem Field.reread_eq_self {f : Field} (flagged : f.nullable = f.type.nullable) :
    f.reread = f ↔ f.Settled := by
  obtain ⟨_, _, _, primaryKey, _, default, mode, _⟩ := f
  unfold Field.reread Field.reflagged Field.Settled Field.customaryMode
  cases mode <;> cases primaryKey <;> cases default <;> simp_all

end Schema

namespace Catalog

open Schema (Field Index Relationship)

theorem writtenField_said (f : Field) : Schema.FieldSaid
    (Value.keyed ([("name", .text f.name), ("type", .text f.type.name)]
      ++ flag "nullable" f.nullable ++ flag "primary_key" f.primaryKey ++ flag "unique" f.unique
      ++ maybeText "default" f.default
      ++ uncommon .required Schema.InputMode.name "input_mode" f.inputMode
      ++ flag "redacted" f.redacted)) f.reflagged
    (if f.inputMode = .required then none else some f.inputMode) where
  name := by simp [Field.reflagged]
  type := by simp [List.lookup_cons, Field.reflagged]
  nullable := by
    cases h : f.nullable with
    | true => exact .inl (by simp [List.lookup_append, List.lookup_cons, Field.reflagged, h])
    | false => exact .inr (by simp [List.lookup_append, List.lookup_cons, Field.reflagged, h])
  primaryKey := given_flag (b := f.primaryKey) (by simp [List.lookup_append, List.lookup_cons])
  unique := given_flag (b := f.unique) (by simp [List.lookup_append, List.lookup_cons])
  default := Check.given_text (by simp [List.lookup_append, List.lookup_cons, Field.reflagged])
  mode := by
    by_cases h : f.inputMode = .required <;> simp [List.lookup_append, List.lookup_cons, h]
  redacted := given_flag (b := f.redacted) (by simp [List.lookup_append, List.lookup_cons])
  others := Check.noOthers_keyed (by simp [Schema.fieldKeys])

theorem readField_writtenField (f g : Field) :
    Schema.readField (writtenField f) = .fits g ↔ g = f.reread ∧ f.reread.Storable := by
  have hread := (writtenField_said f).readField (g := g)
  have hstorable : f.reread.Storable ↔ f.reflagged.Storable :=
    ⟨fun ⟨named, name, flagged, default⟩ => ⟨named, name, flagged, default⟩,
      fun ⟨named, name, flagged, default⟩ => ⟨named, name, flagged, default⟩⟩
  have hmode : f.reflagged.customaryMode = f.customaryMode := rfl
  rw [hstorable]
  unfold Schema.Field.reread
  split at hread <;> simp_all [writtenField, Value.ofFields_eq]

theorem readIndex_writtenIndex (i j : Index) :
    Schema.readIndex (writtenIndex i) = .fits j ↔ j = i ∧ i.Storable := by
  rw [writtenIndex, Value.ofFields_eq]
  refine Schema.readIndex_said (i := i) ?_ ?_ (given_flag ?_) ?_
  · simp
  · simp [List.lookup_cons]
  · simp [List.lookup_cons]
  · exact Check.noOthers_keyed (by simp)

theorem writtenRelationship_said (r : Relationship) : Schema.RelationshipSaid
    (Value.keyed (maybeText "name" r.name
      ++ [("column", .text r.column),
        ("references", .ofFields ([("table", .text r.references.table)]
          ++ uncommon "id" id "column" r.references.column))]
      ++ uncommon .manyToOne Schema.Cardinality.name "type" r.cardinality
      ++ uncommon .noAction Schema.Action.name "on_delete" r.onDelete
      ++ uncommon .noAction Schema.Action.name "on_update" r.onUpdate))
    (Value.keyed ([("table", .text r.references.table)]
      ++ uncommon "id" id "column" r.references.column)) r where
  name := by simp [List.lookup_append, List.lookup_cons]
  column := by simp [List.lookup_append]
  references := by simp [List.lookup_append, List.lookup_cons, Value.ofFields_eq]
  table := by simp
  target := given_uncommon (by simp [List.lookup_cons])
  farOthers := Check.noOthers_keyed (by simp)
  cardinality := given_uncommon (by simp [List.lookup_append, List.lookup_cons])
  longKey := by simp [List.lookup_append, List.lookup_cons]
  onDelete := given_uncommon (by simp [List.lookup_append, List.lookup_cons])
  onUpdate := given_uncommon (by simp [List.lookup_append, List.lookup_cons])
  others := by
    apply Check.noOthers_keyed
    by_cases h : r.cardinality = .manyToOne <;>
      simp [Schema.cardinalityKey, List.lookup_append, List.lookup_cons, h]

theorem readRelationship_writtenRelationship (r s : Relationship) :
    Schema.readRelationship (writtenRelationship r) = .fits s ↔ s = r ∧ r.Storable :=
  (writtenRelationship_said r).readRelationship

/-- The data that the file of a fragment holds. -/
def writtenFragment (f : Schema.Fragment) : Value :=
  .ofFields ([("table_name", .text f.table)]
    ++ maybeText "struct_name" f.structName
    ++ unlessEmpty "fields" (f.fields.map writtenField)
    ++ unlessEmpty "alters" (f.alters.map writtenField)
    ++ unlessEmpty "indexes" (f.indexes.map writtenIndex)
    ++ unlessEmpty "relationships" (f.relationships.map writtenRelationship))

theorem fragmentText_eq (f : Schema.Fragment) : fragmentText f = Yaml.write (writtenFragment f) :=
  rfl

/-- A fragment with its fields as they come back. -/
def reread (f : Schema.Fragment) : Schema.Fragment :=
  { f with fields := f.fields.map Field.reread, alters := f.alters.map Field.reread }

theorem writtenFragment_said (f : Schema.Fragment) : Schema.FragmentSaid
    (Value.keyed ([("table_name", .text f.table)]
      ++ maybeText "struct_name" f.structName
      ++ unlessEmpty "fields" (f.fields.map writtenField)
      ++ unlessEmpty "alters" (f.alters.map writtenField)
      ++ unlessEmpty "indexes" (f.indexes.map writtenIndex)
      ++ unlessEmpty "relationships" (f.relationships.map writtenRelationship))) (reread f) where
  table := by simp [reread]
  structName := by simp [reread, List.lookup_append, List.lookup_cons]
  fields := Schema.listSaid_map readField_writtenField
    (given_uncommon (by simp [List.lookup_append, List.lookup_cons]))
  alters := Schema.listSaid_map readField_writtenField
    (given_uncommon (by simp [List.lookup_append, List.lookup_cons]))
  indexes := show Schema.ListSaid _ _ _ _ f.indexes from Schema.listSaid_self readIndex_writtenIndex
    (given_uncommon (by simp [List.lookup_append, List.lookup_cons]))
  relationships := show Schema.ListSaid _ _ _ _ f.relationships from
    Schema.listSaid_self readRelationship_writtenRelationship
      (given_uncommon (by simp [List.lookup_append, List.lookup_cons]))
  source := by simp [List.lookup_append, List.lookup_cons]
  others := Check.noOthers_keyed (by simp)

/-- A fragment comes back with its fields as they are read again, where it can be read at all. -/
theorem parseFragment_written {f g : Schema.Fragment} {source : Option String} :
    Schema.parseFragment (writtenFragment f) source = .ok g ↔
      g = { reread f with source } ∧ (reread f).Storable :=
  (writtenFragment_said f).parseFragment

theorem pulledField_settled (t : Shape) (c : Column) : (pulledField t c).Settled := by
  intro hasked
  have hmode : inputMode c (t.primaryKey.contains c.name) = .required := hasked
  unfold inputMode at hmode
  split at hmode
  · cases hmode
  · next hfilled =>
      split at hmode
      · cases hmode
      · next hspared =>
          rw [Bool.not_eq_true, Bool.or_eq_false_iff] at hfilled hspared
          exact ⟨hfilled.1, Option.isSome_eq_false_iff.mp hspared.2 |> Option.isNone_iff_eq_none.mp⟩

theorem reread_pulled (t : Shape) (tables : List Shape) : reread (pulled t tables) = pulled t tables := by
  have hfields : (t.columns.map (pulledField t)).map Field.reread = t.columns.map (pulledField t) :=
    (List.map_congr_left fun _ hf => by
      obtain ⟨c, -, rfl⟩ := List.mem_map.mp hf
      exact (Field.reread_eq_self rfl).mpr (pulledField_settled t c)).trans (List.map_id _)
  rw [reread, pulled, hfields]
  rfl

/-- A field that leaves out its mode when it is written is taken to have the mode that it has. -/
theorem derivedMode_written {f : Field} (settled : f.Settled) {entries : List (Value × Value)}
    (written : writtenField f = .map entries) (omitted : Value.find? "input_mode" entries = none) :
    Schema.derivedMode entries = f.inputMode := by
  have hsaid : Schema.FieldSaid entries f.reflagged
      (if f.inputMode = .required then none else some f.inputMode) := by
    cases written
    exact writtenField_said f
  have hasked : f.inputMode = .required := by
    have hmode := Option.map_eq_none_iff.mp (hsaid.mode.symm.trans omitted)
    split at hmode
    · assumption
    · cases hmode
  have hmode : f.reflagged.customaryMode = f.customaryMode := rfl
  rw [hsaid.derivedMode, hmode, Field.customaryMode, (settled hasked).1, (settled hasked).2, hasked]
  rfl

/-- The fragment of a table survives its file, if what is written as YAML is read again: every part of it
comes back. In particular a column whose mode is left out gets the mode that it was pulled with. -/
theorem pulled_fragment_survives (t : Shape) (tables : List Shape) (f : Schema.Fragment)
    (made : (toFragment t tables).1 = .ok f)
    (inverts : Yaml.read (Yaml.write (writtenFragment f)) = .ok (writtenFragment f)) :
    (∃ data, Yaml.read (fragmentText f) = .ok data ∧ Schema.parseFragment data f.source = .ok f) ∧
    List.Forall₂ (fun c g => ∀ entries, writtenField g = .map entries →
      Value.find? "input_mode" entries = none →
        Schema.derivedMode entries = inputMode c (t.primaryKey.contains c.name)) t.columns f.fields := by
  obtain ⟨rfl, hstorable⟩ := toFragment_eq_ok.mp made
  constructor
  · refine ⟨_, inverts, parseFragment_written.mpr ?_⟩
    rw [reread_pulled]
    exact ⟨rfl, hstorable⟩
  · refine List.forall₂_map_right_iff.mpr (List.forall₂_same.mpr fun c _ entries => ?_)
    exact derivedMode_written (pulledField_settled t c)

open Yaml (Node Token)

def postsFragment : Schema.Fragment :=
  pulled postsShape [postsShape, usersShape]

def postsText : String :=
  "table_name: posts\nfields:\n- name: id\n  type: i64\n  primary_key: true\n"
    ++ "  input_mode: auto_generated\n- name: author_id\n  type: i64\nrelationships:\n"
    ++ "- name: posts_author\n  column: author_id\n  references:\n    table: users\n"

/-- The tokens of a key and its value. -/
def pairTokens (key value : String) : List Token :=
  [.key, .scalar true key, .value, .scalar true value]

def postsTokens : List Token :=
  .blockMap :: pairTokens "table_name" "posts" ++ [.key, .scalar true "fields", .value]
    ++ .item :: .blockMap :: pairTokens "name" "id" ++ pairTokens "type" "i64"
    ++ pairTokens "primary_key" "true" ++ pairTokens "input_mode" "auto_generated" ++ [.blockEnd]
    ++ .item :: .blockMap :: pairTokens "name" "author_id" ++ pairTokens "type" "i64" ++ [.blockEnd]
    ++ [.key, .scalar true "relationships", .value]
    ++ .item :: .blockMap :: pairTokens "name" "posts_author" ++ pairTokens "column" "author_id"
    ++ [.key, .scalar true "references", .value, .blockMap] ++ pairTokens "table" "users"
    ++ [.blockEnd, .blockEnd, .blockEnd]

def pairNode (key value : String) : Node × Node :=
  (.scalar none true key, .scalar none true value)

def postsNode : Node :=
  .map none [pairNode "table_name" "posts",
    (.scalar none true "fields", .list none [
      .map none [pairNode "name" "id", pairNode "type" "i64", pairNode "primary_key" "true",
        pairNode "input_mode" "auto_generated"],
      .map none [pairNode "name" "author_id", pairNode "type" "i64"]]),
    (.scalar none true "relationships", .list none [
      .map none [pairNode "name" "posts_author", pairNode "column" "author_id",
        (.scalar none true "references", .map none [pairNode "table" "users"])]])]

theorem write_posts : Yaml.write (writtenFragment postsFragment) = postsText := by
  decide +kernel

theorem tokens_posts : Token.ofText (Yaml.dropMark postsText.toList) = .ok postsTokens :=
  eq_ok_of_toOption (by decide +kernel)

theorem node_posts : Node.ofTokens postsTokens = .ok postsNode := by
  -- No node is named, and so no copy takes the place of another.
  have hplain : postsNode.unroll [] Yaml.copies = postsNode := by
    simp [Node.unroll, Yaml.unrollItems, Yaml.unrollEntries, postsNode, pairNode]
  change Except.ok (postsNode.unroll [] Yaml.copies) = _
  rw [hplain]

theorem value_textScalar {s : String} (h : Yaml.Kind.of s = .text) :
    Node.value (.scalar none true s) = .ok (.text s) := by
  simp [Node.value, Yaml.kindOf?, h, Yaml.scalarValue, Yaml.here]
  rfl

theorem kind_textScalar {s : String} (h : Yaml.Kind.of s = .text) :
    Node.kind? (.scalar none true s) = some .text := by
  simp [Node.kind?, Yaml.kindOf?, h]

theorem data_posts : postsNode.data = .ok (writtenFragment postsFragment) := by
  have htexts : ∀ s ∈ ["table_name", "posts", "fields", "name", "id", "type", "i64", "primary_key",
      "input_mode", "auto_generated", "author_id", "relationships", "posts_author", "column",
      "references", "table", "users"], Yaml.Kind.of s = .text := by
    decide +kernel
  have hflag : Node.value (.scalar none true "true") = .ok (.bool true) := by
    have hkind : Yaml.Kind.of "true" = .bool := by decide +kernel
    simp [Node.value, Yaml.kindOf?, hkind, Yaml.scalarValue, Yaml.here]
    rfl
  have hmap : Yaml.shapeOf? .map none = some .map := rfl
  have hlist : Yaml.shapeOf? .list none = some .list := rfl
  simp only [List.forall_mem_cons] at htexts
  simp [postsNode, pairNode, Node.data, Node.value, Yaml.values, Yaml.allEntries, Yaml.entryValues,
    htexts, hflag, hmap, hlist, value_textScalar, kind_textScalar, Yaml.mergesWell, Yaml.both,
    Yaml.inside, Yaml.asKey, Yaml.canBeKey, Except.map, Except.mapError]
  rfl

theorem inverts_posts :
    Yaml.read (Yaml.write (writtenFragment postsFragment)) = .ok (writtenFragment postsFragment) := by
  have hreadable : postsText.toList.all Yaml.isReadable = true := by decide +kernel
  rw [write_posts, Yaml.read]
  simp only [hreadable, tokens_posts]
  change (Node.ofTokens postsTokens >>= Node.data) = _
  rw [node_posts]
  exact data_posts

/-- The file of posts with a key to their authors. -/
theorem pulled_fragment_survives_posts :
    (∃ data, Yaml.read postsText = .ok data ∧
      Schema.parseFragment data (some "posts.yaml") = .ok postsFragment) ∧
    List.Forall₂ (fun c g => ∀ entries, writtenField g = .map entries →
      Value.find? "input_mode" entries = none →
        Schema.derivedMode entries = inputMode c (["id"].contains c.name))
      postsShape.columns postsFragment.fields := by
  have hsurvives := pulled_fragment_survives postsShape [postsShape, usersShape] postsFragment
    toFragment_posts inverts_posts
  rwa [fragmentText_eq, write_posts] at hsurvives

end Catalog

end TableLoom
