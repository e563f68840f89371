import TableLoom.Catalog.Fragment
import TableLoom.Proofs.Schema.Said

/-!
The fragment of a table in a database, as a function of what the catalogs say. Where it can be made at
all, each field, index and relationship is what its column, index or key makes it.
-/

namespace TableLoom.Catalog

open Check (Given Known)
open Schema (Field Index Relationship Reference)

section

variable {k key : String} {known : List String}

@[simp] theorem lookup_flag (b : Bool) :
    (flag key b).lookup k = if k = key ∧ b = true then some (.bool true) else none := by
  unfold flag
  by_cases h : k = key
  · cases b <;> simp [h]
  · cases b <;> simp [List.lookup_cons, beq_false_of_ne h, h]

@[simp] theorem lookup_maybeText (s : Option String) :
    (maybeText key s).lookup k = if k = key then s.map .text else none := by
  unfold maybeText
  by_cases h : k = key
  · cases s <;> simp [h]
  · cases s <;> simp [List.lookup_cons, beq_false_of_ne h, h]

@[simp] theorem lookup_uncommon {α : Type} [DecidableEq α] (customary : α) (name : α → String) (a : α) :
    (uncommon customary name key a).lookup k =
      if k = key ∧ a ≠ customary then some (.text (name a)) else none := by
  unfold uncommon
  by_cases h : k = key
  · by_cases ha : a = customary <;> simp [h, ha]
  · by_cases ha : a = customary <;> simp [List.lookup_cons, beq_false_of_ne h, h, ha]

@[simp] theorem lookup_unlessEmpty (items : List Value) :
    (unlessEmpty key items).lookup k = if k = key ∧ items ≠ [] then some (.list items) else none := by
  unfold unlessEmpty
  by_cases h : k = key
  · cases items <;> simp [h]
  · cases items <;> simp [List.lookup_cons, beq_false_of_ne h, h]

@[simp] theorem known_flag {b : Bool} (h : key ∈ known) : Known known (flag key b) := by
  cases b <;> simp [Known, flag, h]

@[simp] theorem known_maybeText {s : Option String} (h : key ∈ known) : Known known (maybeText key s) := by
  cases s <;> simp [Known, maybeText, h]

@[simp] theorem known_uncommon {α : Type} [DecidableEq α] {customary a : α} {name : α → String}
    (h : a ≠ customary → key ∈ known) : Known known (uncommon customary name key a) := by
  unfold Known uncommon
  split
  · simp
  · next ha => simp [h ha]

@[simp] theorem known_unlessEmpty {items : List Value} (h : key ∈ known) :
    Known known (unlessEmpty key items) := by
  cases items <;> simp [Known, unlessEmpty, h]

end

/-- What the data of a column is read as. -/
def pulledField (t : Shape) (c : Column) : Field :=
  let isKey := t.primaryKey.contains c.name
  { name := c.name, type := c.fieldType, primaryKey := isKey
    unique := !isKey && t.uniqueColumns.contains c.name
    default := c.default, inputMode := inputMode c isKey
    redacted := secrets.any (Text.contains · c.name) }

theorem given_flag {fields : List (String × Value)} {key : String} {b : Bool}
    (h : fields.lookup key = if b = true then some (.bool true) else none) :
    Given (Value.keyed fields) key (.bool b) (b = false) := by
  rw [Given, Value.find?_keyed, h]
  cases b <;> simp

theorem given_uncommon {fields : List (String × Value)} {key : String} {v : Value} {customary : Prop}
    [Decidable customary] (h : fields.lookup key = if customary then none else some v) :
    Given (Value.keyed fields) key v customary := by
  rw [Given, Value.find?_keyed, h]
  split <;> simp_all

theorem pulledField_said (t : Shape) (c : Column) :
    Schema.FieldSaid (Value.keyed ([("name", .text c.name), ("type", .text c.fieldType.name)]
      ++ flag "primary_key" (pulledField t c).primaryKey ++ flag "unique" (pulledField t c).unique
      ++ maybeText "default" c.default
      ++ [("input_mode", .text (pulledField t c).inputMode.name)]
      ++ flag "redacted" (pulledField t c).redacted)) (pulledField t c) (some (pulledField t c).inputMode) where
  name := by simp [pulledField]
  type := by simp [List.lookup_cons, pulledField]
  nullable := .inr ⟨by simp [List.lookup_append, List.lookup_cons], rfl⟩
  primaryKey := given_flag (by simp [List.lookup_append, List.lookup_cons])
  unique := given_flag (by simp [List.lookup_append, List.lookup_cons])
  default := Check.given_text (by simp [List.lookup_append, List.lookup_cons]; rfl)
  mode := by simp [List.lookup_append, List.lookup_cons]
  redacted := given_flag (by simp [List.lookup_append, List.lookup_cons])
  others := Check.noOthers_keyed (by simp [Schema.fieldKeys])

theorem readField_fieldData (t : Shape) (c : Column) (f : Field) :
    Schema.readField (fieldData t c) = .fits f ↔
      f = pulledField t c ∧ (pulledField t c).Storable :=
  (pulledField_said t c).readField

/-- What the data of an index is read as. -/
def pulledIndex (i : TableIndex) : Index :=
  { name := i.name, columns := i.columns, unique := i.unique }

/-- The indexes of a table that neither the primary key nor a unique constraint brings along. -/
def ownIndexes (t : Shape) : List TableIndex :=
  t.indexes.filter fun i => !i.primary && !(t.uniqueConstraints.any (·.1 == i.name))

theorem indexData_eq (t : Shape) : indexData t = (ownIndexes t).map fun i =>
    .ofFields [("name", .text i.name), ("columns", .texts i.columns), ("unique", .bool i.unique)] :=
  rfl

theorem readIndex_data (i : TableIndex) (j : Index) :
    Schema.readIndex (.ofFields [("name", .text i.name), ("columns", .texts i.columns),
      ("unique", .bool i.unique)]) = .fits j ↔ j = pulledIndex i ∧ (pulledIndex i).Storable := by
  rw [Value.ofFields_eq]
  refine Schema.readIndex_said (i := pulledIndex i) ?_ ?_ (.inl ?_) ?_
  · simp [pulledIndex]
  · simp [pulledIndex, List.lookup_cons]
  · simp [pulledIndex, List.lookup_cons]
  · exact Check.noOthers_keyed (by simp)

/-- What the data of a link is read as. -/
def Link.relationship (l : Link) : Relationship :=
  { name := l.name, column := l.column, references := ⟨l.table, l.target⟩, cardinality := l.cardinality
    onDelete := (l.actions.map Prod.fst).getD .noAction
    onUpdate := (l.actions.map Prod.snd).getD .noAction }

theorem Link.relationship_said (l : Link) : Schema.RelationshipSaid
    (Value.keyed (maybeText "name" l.name
      ++ [("column", .text l.column),
        ("references", .ofFields [("table", .text l.table), ("column", .text l.target)]),
        ("type", .text l.cardinality.name)]
      ++ l.actions.toList.flatMap fun (d, u) =>
        [("on_delete", .text d.name), ("on_update", .text u.name)]))
    (Value.keyed [("table", .text l.table), ("column", .text l.target)]) l.relationship where
  name := by
    cases l.actions <;> simp [List.lookup_append, List.lookup_cons, Link.relationship]
  column := by simp [List.lookup_append, Link.relationship]
  references := by simp [List.lookup_append, List.lookup_cons, Value.ofFields_eq]
  table := by simp [Link.relationship]
  target := .inl (by simp [List.lookup_cons, Link.relationship])
  farOthers := Check.noOthers_keyed (by simp)
  cardinality := .inl (by simp [List.lookup_append, List.lookup_cons, Link.relationship])
  longKey := by
    cases l.actions <;> simp [List.lookup_append, List.lookup_cons]
  onDelete := by
    unfold Given
    cases h : l.actions <;> simp [List.lookup_append, List.lookup_cons, Link.relationship, h]
  onUpdate := by
    unfold Given
    cases h : l.actions <;> simp [List.lookup_append, List.lookup_cons, Link.relationship, h]
  others := by
    apply Check.noOthers_keyed
    cases l.actions <;> simp [Schema.cardinalityKey, List.lookup_append, List.lookup_cons]

theorem readRelationship_data (l : Link) (r : Relationship) :
    Schema.readRelationship l.data = .fits r ↔ r = l.relationship ∧ l.relationship.Storable :=
  l.relationship_said.readRelationship

/-- The fragment of a table. -/
def pulled (t : Shape) (tables : List Shape) : Schema.Fragment :=
  { table := t.name, fields := t.columns.map (pulledField t)
    indexes := (ownIndexes t).map pulledIndex
    relationships := (links t tables).1.map Link.relationship
    source := some (fragmentFile t.name) }

theorem pulled_said (t : Shape) (tables : List Shape) : Schema.FragmentSaid
    (Value.keyed ([("table_name", .text t.name), ("fields", .list (t.columns.map (fieldData t)))]
      ++ unlessEmpty "indexes" (indexData t)
      ++ unlessEmpty "relationships" ((links t tables).1.map Link.data))) (pulled t tables) where
  table := by simp [pulled]
  structName := by simp [pulled, List.lookup_append, List.lookup_cons]
  fields := Schema.listSaid_map (readField_fieldData t)
    (.inl (by simp [List.lookup_cons]))
  alters := Schema.listSaid_absent (by simp [List.lookup_append, List.lookup_cons])
  indexes := Schema.listSaid_map readIndex_data
    (given_uncommon (by simp [List.lookup_append, List.lookup_cons, indexData_eq]))
  relationships := Schema.listSaid_map readRelationship_data
    (given_uncommon (by simp [List.lookup_append, List.lookup_cons]))
  source := by simp [List.lookup_append, List.lookup_cons]
  others := Check.noOthers_keyed (by simp)

/-- Where the fragment of a table can be made, it is the one that the catalogs call for. -/
theorem toFragment_eq_ok {t : Shape} {tables : List Shape} {f : Schema.Fragment} :
    (toFragment t tables).1 = .ok f ↔ f = pulled t tables ∧ (pulled t tables).Storable :=
  (pulled_said t tables).parseFragment

/-- Posts, each with a key to its author. -/
def postsShape : Shape :=
  { name := "posts"
    columns := [{ name := "id", dataType := "bigint", udt := "int8", identity := true },
      { name := "author_id", dataType := "bigint", udt := "int8" }]
    primaryKey := ["id"]
    foreignKeys := [{ name := "posts_author", columns := ["author_id"], table := "users"
                      foreignColumns := ["id"] }] }

def usersShape : Shape :=
  { name := "users", columns := [{ name := "id", dataType := "bigint", udt := "int8", identity := true }]
    primaryKey := ["id"] }

theorem toFragment_posts : (toFragment postsShape [postsShape, usersShape]).1 =
    .ok (pulled postsShape [postsShape, usersShape]) :=
  rfl

end TableLoom.Catalog
