import TableLoom.Proofs.Catalog.Joins
import TableLoom.Proofs.Generation.Rendering
import TableLoom.Proofs.Query.Correlation
import TableLoom.Proofs.Schema.FarColumns
import TableLoom.Proofs.Schema.Junctions
import TableLoom.Proofs.Text.Tokens

/-!
The columns that the relations of emitted classes compare. The near one is a column of the table. The far
one is whatever the relationship names, or the customary key, and no rule has looked for it in the other
table.
-/

namespace TableLoom

namespace Schema

theorem Relationship.foreignColumn_eq (rel : Relationship) (owner : String) :
    rel.foreignColumn owner = if rel.column = "id" ∧ rel.references.column = "id"
      then Table.customaryKey owner else rel.references.column := by
  simp [foreignColumn, isReverse, Naming.reverseColumn, Table.customaryKey]

end Schema

namespace Generation

open Schema (Table Registry Relationship)

/-- Both columns that an include of the relation compares are there, in its table and in the other one. -/
structure Comparable (t other : Table) (relation : Query.Relation) : Prop where
  own : t.hasField relation.localColumn = true
  far : other.hasField relation.foreignColumn = true

/-- What is known of the columns of the relation that a relationship of the table becomes. -/
structure Compared (t other : Table) (rel : Relationship) : Prop where
  own : t.hasField (rel.relation t.name).localColumn = true
  link : (rel.relation t.name).link t.name =
    (rel.relation t.name).near.sql ++ " = " ++ ((rel.relation t.name).far t.name).sql
  far : (rel.relation t.name).foreignColumn =
    if rel.column = "id" ∧ rel.references.column = "id" then Table.customaryKey t.name
    else rel.references.column
  comparable : Comparable t other (rel.relation t.name) ↔
    ∃ f ∈ other.fields, f.name = rel.foreignColumn t.name
  /-- A junction has some key to the table, but the relation need not be by that one. -/
  junction : rel.cardinality = .manyToMany →
    ∃ c, other.IsKeyTo t.name c ∧ (rel.foreignColumn t.name = c → Comparable t other (rel.relation t.name))

theorem compared_of_accepted {r : Registry} {t u : Table} (ht : t ∈ r.examine.tables)
    (hu : u ∈ r.examine.tables) {rel : Relationship} (hrel : rel ∈ t.relationships)
    (leads : u.name = rel.references.table) : Compared t u rel := by
  obtain ⟨-, -, -, -, -, hpasses⟩ := Registry.mem_tables ht
  obtain ⟨-, -, -, -, -, hother⟩ := Registry.mem_tables hu
  have hown := (hpasses.relationships rel hrel).1
  constructor
  case own => exact hown
  case link =>
    exact Query.Relation.link_eq (Text.point_notMem_of_isIdentifier (Registry.isIdentifier_field ht hown))
  case far => exact rel.foreignColumn_eq t.name
  case comparable =>
    exact ⟨fun h => Table.hasField_iff.mp h.far, fun h => ⟨hown, Table.hasField_iff.mpr h⟩⟩
  case junction =>
    intro hmany
    have hjunction := hpasses.isJunction hrel hmany (leads ▸ Registry.table?_known hu)
    obtain ⟨⟨c, hc⟩, -⟩ := Table.isJunction_iff.mp hjunction
    refine ⟨c, hc, ?_⟩
    rintro rfl
    exact ⟨hown, hother.hasField_key ((Table.isKey_iff t.name).mpr (.inl hc))⟩

/-- The relations as a query class sets them, by the relationships of the table. -/
def relationsSet (t : Table) : Code.Assignment :=
  ⟨"relations", none, TableModule.braces (t.relationships.map fun rel => (rel.relation t.name).entry)⟩

theorem relations_queryClass (t : Table) (variants : List Relationship) : ∃ before after,
    (TableModule.queryClass t variants).sections = [.settings (before ++ relationsSet t :: after)] :=
  ⟨[_, _, _, _, _], _, rfl⟩

/-- The relations of the classes of accepted tables start from columns of the table and lead to accepted
tables. Whether the column that they compare is there depends on what the relationship says and has no
bearing on the examination, which comes out the same for any other columns and for columns that no table
has. -/
theorem relations_compare_columns (r : Registry) :
    (∀ t ∈ r.examine.tables,
      (∀ c : Config, ∃ m, tableModule c t r.examine.tables = .ok m ∧ ∃ k ∈ m.classes,
        k.name = t.recordName ++ "Query" ∧ ∃ before after,
          k.sections = [.settings (before ++ relationsSet t :: after)]) ∧
      ∀ rel ∈ t.relationships, ∃ u ∈ r.examine.tables, u.name = rel.references.table ∧ Compared t u rel) ∧
    (∀ far, (r.aimed far).examine.tables = r.examine.tables.map (fun t => t.aimed (far t.name)) ∧
      (r.aimed far).examine.subjects.map (fun s => (s.name, s.violations)) =
        r.examine.subjects.map fun s => (s.name, s.violations)) ∧
    ∃ far, ∀ t ∈ (r.aimed far).examine.tables, ∀ rel ∈ t.relationships,
      ∀ u ∈ (r.aimed far).examine.tables, ¬ Comparable t u (rel.relation t.name) := by
  refine ⟨fun t ht => ⟨fun c => ?_, fun rel hrel => ?_⟩, fun far => ⟨Registry.tables_aimed far r, ?_⟩,
    fun _ _ => "no column", fun t ht rel hrel u hu h => ?_⟩
  · obtain ⟨xs, hmodule, -⟩ := tableModule_ok (c := c) ht
    refine ⟨_, hmodule, TableModule.queryClass t (xs.map (·.relationship)), ?_, rfl, relations_queryClass t _⟩
    rw [classes_linkedModule, TableModule.classes]
    exact List.mem_append_right _ (List.mem_singleton_self _)
  · obtain ⟨u, hu, hname⟩ := Registry.exists_table (Registry.target_mem_accepted ht hrel)
    exact ⟨u, hu, hname, compared_of_accepted ht hu hrel hname⟩
  · rw [Schema.examine_aimed, List.map_map]
    rfl
  · rw [Registry.tables_aimed] at ht
    obtain ⟨t, -, rfl⟩ := List.mem_map.mp ht
    obtain ⟨rel, -, rfl⟩ := List.mem_map.mp hrel
    have hfar := h.far
    have hcolumn : ((rel.aimed fun _ => "no column").relation t.name).foreignColumn = "no column" := by
      rw [Schema.Relationship.relation, Relationship.foreignColumn_eq, if_neg]
      · rfl
      · exact fun hid => absurd (show "no column" = "id" from hid.2) (by decide)
    rw [show (t.aimed _).name = t.name from rfl, hcolumn, Registry.hasField_eq_false hu (by decide)] at hfar
    cases hfar

/-- In the blog, users are loaded by the key of posts and posts by the customary key to users. -/
theorem relations_compare_columns_blog :
    blog.examine.accepted = ["users", "posts"] ∧
      ∀ t ∈ blog.examine.tables, ∀ rel ∈ t.relationships, ∃ u ∈ blog.examine.tables,
        u.name = rel.references.table ∧ Comparable t u (rel.relation t.name) := by
  refine ⟨by decide +kernel, fun t ht rel hrel => ?_⟩
  obtain ⟨u, hu, hname, hcompared⟩ := ((relations_compare_columns blog).1 t ht).2 rel hrel
  have hthere : ∀ t ∈ blog.examine.tables, ∀ rel ∈ t.relationships, ∀ u ∈ blog.examine.tables,
      u.name = rel.references.table → ∃ f ∈ u.fields, f.name = rel.foreignColumn t.name := by
    decide +kernel
  exact ⟨u, hu, hname, hcompared.comparable.mpr (hthere t ht rel hrel u hu hname)⟩

section

/-- Posts by users with a column that users do not have. -/
def strayPosts : Table :=
  { posts with relationships := [{ column := "user_id", references := ⟨"users", "uuid"⟩ }] }

def strayUsers : Table :=
  { name := "users", fields := [keyField] }

def stray : Registry where
  entries := [
    { table := "users", fragments := [{ table := "users", fields := strayUsers.fields }] },
    { table := "posts"
      fragments := [{ table := "posts", fields := strayPosts.fields
                      relationships := strayPosts.relationships }] }]
  distinct := by decide

/-- Nothing is found, and the query class of posts compares a column that is not there. -/
theorem absent_column_compared :
    stray.examine.tables = [strayUsers, strayPosts] ∧
      (∀ s ∈ stray.examine.subjects, s.violations = []) ∧
      strayPosts.relationships.map (TableModule.relationEntry strayPosts) =
        ["\"user\": Relation(\"user\", \"users\", \"user_id\", \"uuid\", many=False)"] ∧
      ∀ rel ∈ strayPosts.relationships,
        (rel.relation "posts").link "posts" = "user_rel.uuid = posts.user_id" ∧
          ¬ Comparable strayPosts strayUsers (rel.relation "posts") := by
  refine ⟨by decide +kernel, by decide +kernel, by decide +kernel, fun rel hrel => ?_⟩
  obtain rfl := List.mem_singleton.mp hrel
  exact ⟨by decide +kernel, fun h => absurd h.far (by decide +kernel)⟩

end

end Generation

end TableLoom
