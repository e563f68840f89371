import Mathlib.Logic.Basic
import TableLoom.Generation.TableModule
import TableLoom.Proofs.Catalog.Pulled
import TableLoom.Query.Relation

/-!
What pulled relationships load. Each comes from a foreign key and joins the columns that the key ties
together, as long as its own column is told apart from the reverse one: the name `id` stands for the
customary key where both ends bear it.
-/

namespace TableLoom

namespace Query.Relation

/-- A relation loads a row along with another one. A column that holds nothing equals no other. -/
def Loads (r : Relation) (row other : String → Option Value) : Prop :=
  ∃ v, row r.localColumn = some v ∧ other r.foreignColumn = some v

/-- What is loaded along tells which columns are joined. -/
theorem loads_iff_columns (r : Relation) (c d : String) :
    (∀ row other, r.Loads row other ↔ ∃ v, row c = some v ∧ other d = some v) ↔
      r.localColumn = c ∧ r.foreignColumn = d := by
  constructor
  · intro hloads
    -- Rows that hold something in the two columns only.
    obtain ⟨v, hlocal, hforeign⟩ := (hloads (fun x => if x = c then some .null else none)
      (fun x => if x = d then some .null else none)).mpr ⟨.null, by simp, by simp⟩
    exact ⟨Decidable.byContradiction fun hne => by simp [hne] at hlocal,
      Decidable.byContradiction fun hne => by simp [hne] at hforeign⟩
  · rintro ⟨rfl, rfl⟩ row other
    exact Iff.rfl

/-- A relation as the class of a table describes it. -/
def entry (r : Relation) : String :=
  let member := Text.sourceQuoted r.name
  let texts := [r.table, r.localColumn, r.foreignColumn].map Text.sourceQuoted
  s!"{member}: Relation({member}, " ++ Text.join ", " texts
    ++ s!", many={Generation.TableModule.flag r.many})"

end Query.Relation

namespace Schema.Relationship

/-- The relation that a relationship of a table becomes. -/
def relation (owner : String) (r : Relationship) : Query.Relation :=
  { name := r.member, table := r.references.table, localColumn := r.column
    foreignColumn := r.foreignColumn owner, many := r.isMany }

theorem relationEntry_eq (t : Table) (r : Relationship) :
    Generation.TableModule.relationEntry t r = (r.relation t.name).entry :=
  rfl

theorem customary_ne (owner : String) : Naming.singular owner ++ "_id" ≠ "id" := by
  intro h
  have hlength := congrArg String.length h
  rw [String.length_append] at hlength
  change (Naming.singular owner).length + 3 = 2 at hlength
  omega

/-- The other column is the one that is named, unless both are the reverse column. -/
theorem foreignColumn_eq_iff (r : Relationship) (owner : String) :
    r.foreignColumn owner = r.references.column ↔ ¬ (r.column = "id" ∧ r.references.column = "id") := by
  unfold foreignColumn isReverse Naming.reverseColumn
  by_cases h : r.column = "id" ∧ r.references.column = "id"
  · simp [h, customary_ne]
  · simp [h]

end Schema.Relationship

namespace Catalog

open Schema (Relationship)

namespace ForeignKey

def column (k : ForeignKey) : String := firstOf k.columns
def target (k : ForeignKey) : String := firstOf k.foreignColumns

/-- A row refers to another one by a foreign key. -/
def Relates (k : ForeignKey) (row other : String → Option Value) : Prop :=
  ∃ v, row k.column = some v ∧ other k.target = some v

/-- The relationship of the table that holds a key. -/
def forward (k : ForeignKey) : Relationship :=
  { name := some k.name, column := k.column, references := ⟨k.table, k.target⟩
    cardinality := .manyToOne, onDelete := k.onDelete, onUpdate := k.onUpdate }

/-- The relationship of a table to the one whose key leads there. -/
def reverse (k : ForeignKey) (holder : String) : Relationship :=
  { column := "id", references := ⟨holder, k.column⟩, cardinality := .oneToMany }

/-- A relationship of the table that holds a key joins the columns of the key, so that it loads the rows
that the key refers to. -/
structure Followed (k : ForeignKey) (owner : String) (r : Relationship) : Prop where
  column : r.column = k.column
  foreignColumn : r.foreignColumn owner = k.target
  loads : ∀ row other, (r.relation owner).Loads row other ↔ k.Relates row other

/-- A relationship of the table that a key leads to joins the columns of the key, so that it loads the
rows that refer here. -/
structure FollowedBack (k : ForeignKey) (owner : String) (r : Relationship) : Prop where
  column : r.column = k.target
  foreignColumn : r.foreignColumn owner = k.column
  loads : ∀ row other, (r.relation owner).Loads row other ↔ k.Relates other row

theorem followed_iff (k : ForeignKey) (owner : String) :
    k.Followed owner k.forward ↔ ¬ (k.column = "id" ∧ k.target = "id") := by
  have hcolumn := Relationship.foreignColumn_eq_iff k.forward owner
  refine ⟨fun h => hcolumn.mp h.foreignColumn, fun h => ⟨rfl, hcolumn.mpr h, ?_⟩⟩
  exact (Query.Relation.loads_iff_columns _ _ _).mpr ⟨rfl, hcolumn.mpr h⟩

theorem followedBack_iff {k : ForeignKey} (owner holder : String) (htarget : k.target = "id") :
    k.FollowedBack owner (k.reverse holder) ↔ k.column ≠ "id" := by
  -- The column of a reverse relationship is `id` itself, so that one end alone decides.
  have hcolumn : (k.reverse holder).foreignColumn owner = k.column ↔ k.column ≠ "id" := by
    simpa [reverse] using Relationship.foreignColumn_eq_iff (k.reverse holder) owner
  refine ⟨fun h => hcolumn.mp h.foreignColumn, fun h => ⟨htarget.symm, hcolumn.mpr h, fun row other => ?_⟩⟩
  have hloads := (Query.Relation.loads_iff_columns ((k.reverse holder).relation owner) k.target
    k.column).mpr ⟨htarget.symm, hcolumn.mpr h⟩
  rw [hloads, Relates]
  simp only [and_comm]

end ForeignKey

/-- A key of the table itself that becomes a relationship. -/
structure LeadsOut (t : Shape) (tables : List Shape) (k : ForeignKey) : Prop where
  own : k ∈ t.foreignKeys
  single : k.isComposite = false
  pulled : k.table ∈ tables.map (·.name)

/-- A key of another table that leads to the column `id` of this one. -/
structure LeadsIn (t : Shape) (tables : List Shape) (o : Shape) (k : ForeignKey) : Prop where
  pulled : o ∈ tables
  other : o.name ≠ t.name
  own : k ∈ o.foreignKeys
  here : k.table = t.name
  single : k.isComposite = false
  target : k.target = "id"
  column : "id" ∈ t.columns.map (·.name)

/-- The link for a key of the table itself. -/
def forwardLink (k : ForeignKey) : Link :=
  { name := some k.name, column := k.column, table := k.table, target := k.target
    cardinality := .manyToOne, actions := some (k.onDelete, k.onUpdate) }

/-- The link for a key that leads here. -/
def reverseLink (entry : String × ForeignKey) : Link :=
  { column := "id", table := entry.1, target := entry.2.column, cardinality := .oneToMany }

theorem mem_ownLinks {t : Shape} {tables : List Shape} {l : Link} :
    l ∈ (t.foreignKeys.map (ownLink t (tables.map (·.name)))).filterMap Except.toOption ↔
      ∃ k, LeadsOut t tables k ∧ l = forwardLink k := by
  have hlink (k : ForeignKey) : (ownLink t (tables.map (·.name)) k).toOption = some l ↔
      (k.isComposite = false ∧ k.table ∈ tables.map (·.name)) ∧ l = forwardLink k := by
    unfold ownLink
    cases hcomposite : k.isComposite
    · by_cases hknown : k.table ∈ tables.map (·.name)
      · simp [hknown, Except.toOption, forwardLink, ForeignKey.column, ForeignKey.target, eq_comm]
      · simp [hknown, Except.toOption]
    · simp [Except.toOption]
  simp only [List.filterMap_map, List.mem_filterMap, Function.comp_apply, hlink]
  exact ⟨fun ⟨k, hk, ⟨hsingle, hknown⟩, hl⟩ => ⟨k, ⟨hk, hsingle, hknown⟩, hl⟩,
    fun ⟨k, ⟨hk, hsingle, hknown⟩, hl⟩ => ⟨k, hk, ⟨hsingle, hknown⟩, hl⟩⟩

theorem mem_inward {t : Shape} {tables : List Shape} {e : String × ForeignKey} :
    e ∈ inward t tables ↔ ∃ o k, LeadsIn t tables o k ∧ e = (o.name, k) := by
  simp only [inward, List.mem_filter, List.mem_flatMap, List.mem_map]
  constructor
  · rintro ⟨⟨o, ⟨ho, hother⟩, k, hk, rfl⟩, hleads⟩
    simp only [Bool.and_eq_true, beq_iff_eq, Bool.not_eq_true', List.any_eq_true] at hleads
    obtain ⟨⟨⟨hhere, hsingle⟩, htarget⟩, hcolumn⟩ := hleads
    exact ⟨o, k, ⟨ho, by simpa using hother, hk, hhere, hsingle, htarget, List.mem_map.mpr hcolumn⟩, rfl⟩
  · rintro ⟨o, k, h, rfl⟩
    refine ⟨⟨o, ⟨h.pulled, by simpa using h.other⟩, k, h.own, rfl⟩, ?_⟩
    have htarget : firstOf k.foreignColumns = "id" := h.target
    have hcolumn := List.mem_map.mp h.column
    simpa [h.here, h.single, htarget] using hcolumn

theorem reaches_iff {ls : List Link} {table : String} :
    reaches ls table = true ↔ ∃ l ∈ ls, l.table = table ∧ l.column = "id" := by
  simp [reaches]

/-- Links after those for keys that lead here were added. -/
structure Gathered (entries : List (String × ForeignKey)) (before after : List Link) : Prop where
  kept : ∀ l ∈ before, l ∈ after
  made : ∀ l ∈ after, l ∈ before ∨ ∃ e ∈ entries, l = reverseLink e
  reached : ∀ e ∈ entries, reaches after e.1 = true

theorem gathered_addInward (t : Shape) (acc : List Link × List String) (e : String × ForeignKey) :
    Gathered [e] acc.1 (addInward t acc e).1 := by
  unfold addInward
  dsimp only
  split
  · next hreached => exact ⟨fun _ hl => hl, fun _ hl => .inl hl, by simpa using hreached⟩
  · refine ⟨fun l hl => List.mem_append_left _ hl, fun l hl => ?_, ?_⟩
    · exact (List.mem_append.mp hl).imp_right fun hl =>
        ⟨e, List.mem_singleton_self e, List.mem_singleton.mp hl⟩
    · simp [reaches]

theorem Gathered.trans {es es' : List (String × ForeignKey)} {first second third : List Link}
    (h : Gathered es first second) (h' : Gathered es' second third) :
    Gathered (es ++ es') first third := by
  refine ⟨fun l hl => h'.kept l (h.kept l hl), fun l hl => ?_, fun e he => ?_⟩
  · obtain hl | ⟨e, he, rfl⟩ := h'.made l hl
    · exact (h.made l hl).imp_right fun ⟨e, he, hl⟩ => ⟨e, List.mem_append_left _ he, hl⟩
    · exact .inr ⟨e, List.mem_append_right _ he, rfl⟩
  · obtain he | he := List.mem_append.mp he
    · obtain ⟨l, hl, hreaches⟩ := reaches_iff.mp (h.reached e he)
      exact reaches_iff.mpr ⟨l, h'.kept l hl, hreaches⟩
    · exact h'.reached e he

theorem gathered_foldl (t : Shape) (entries : List (String × ForeignKey))
    (acc : List Link × List String) : Gathered entries acc.1 (entries.foldl (addInward t) acc).1 := by
  induction entries generalizing acc with
  | nil => exact ⟨fun _ hl => hl, fun _ hl => .inl hl, by simp⟩
  | cons e rest ih => exact (gathered_addInward t acc e).trans (ih (addInward t acc e))

theorem gathered_links (t : Shape) (tables : List Shape) :
    Gathered (inward t tables)
      ((t.foreignKeys.map (ownLink t (tables.map (·.name)))).filterMap Except.toOption)
      (links t tables).1 := by
  unfold links
  exact gathered_foldl t (inward t tables) (_, _)

theorem relationship_forwardLink (k : ForeignKey) : (forwardLink k).relationship = k.forward :=
  rfl

theorem relationship_reverseLink (entry : String × ForeignKey) :
    (reverseLink entry).relationship = entry.2.reverse entry.1 :=
  rfl

/-- Pulled relationships come from foreign keys and follow them, as the relations do that classes describe
by them. A key of the table itself is followed unless it leads from a column `id` to a column `id`, and a
key that leads here is followed back unless its column is called `id`: there the name is taken for the
mark of the customary key. -/
theorem pulled_relationships_join (t : Shape) (tables : List Shape) (f : Schema.Fragment)
    (made : (toFragment t tables).1 = .ok f) :
    (∀ r ∈ f.relationships, (∃ k, LeadsOut t tables k ∧ r = k.forward) ∨
      ∃ o k, LeadsIn t tables o k ∧ r = k.reverse o.name) ∧
    (∀ table : Schema.Table, table.name = t.name → ∀ r ∈ f.relationships,
      Generation.TableModule.relationEntry table r = (r.relation t.name).entry) ∧
    (∀ k, LeadsOut t tables k → k.forward ∈ f.relationships ∧
      (k.Followed t.name k.forward ↔ ¬ (k.column = "id" ∧ k.target = "id"))) ∧
    (∀ o k, LeadsIn t tables o k →
      (∃ r ∈ f.relationships, r.column = "id" ∧ r.references.table = o.name) ∧
      (k.FollowedBack t.name (k.reverse o.name) ↔ k.column ≠ "id")) := by
  obtain ⟨rfl, -⟩ := toFragment_eq_ok.mp made
  obtain ⟨hkept, hmade, hreached⟩ := gathered_links t tables
  refine ⟨fun r hr => ?_, fun table htable r _ => ?_, fun k hk => ⟨?_, k.followed_iff t.name⟩,
    fun o k hk => ⟨?_, ?_⟩⟩
  · obtain ⟨l, hl, rfl⟩ := List.mem_map.mp hr
    obtain hown | ⟨e, he, rfl⟩ := hmade l hl
    · obtain ⟨k, hk, rfl⟩ := mem_ownLinks.mp hown
      exact .inl ⟨k, hk, relationship_forwardLink k⟩
    · obtain ⟨o, k, hk, rfl⟩ := mem_inward.mp he
      exact .inr ⟨o, k, hk, relationship_reverseLink (o.name, k)⟩
  · rw [Relationship.relationEntry_eq, htable]
  · have hl := hkept _ (mem_ownLinks.mpr ⟨k, hk, rfl⟩)
    exact List.mem_map.mpr ⟨_, hl, relationship_forwardLink k⟩
  · obtain ⟨l, hl, htable, hcolumn⟩ := reaches_iff.mp (hreached _ (mem_inward.mpr ⟨o, k, hk, rfl⟩))
    exact ⟨_, List.mem_map_of_mem hl, hcolumn, htable⟩
  · exact ForeignKey.followedBack_iff t.name o.name hk.target

def postsAuthor : ForeignKey :=
  { name := "posts_author", columns := ["author_id"], table := "users", foreignColumns := ["id"] }

/-- The posts' key to their authors is followed. -/
theorem pulled_relationships_join_posts :
    postsAuthor.forward ∈ (pulled postsShape [postsShape, usersShape]).relationships ∧
      postsAuthor.Followed "posts" postsAuthor.forward := by
  obtain ⟨-, -, hforward, -⟩ := pulled_relationships_join postsShape [postsShape, usersShape] _
    toFragment_posts
  have hkey : LeadsOut postsShape [postsShape, usersShape] postsAuthor :=
    ⟨by decide, by decide, by decide⟩
  exact (hforward postsAuthor hkey).imp_right fun hfollowed => hfollowed.mpr (by decide)

def profilesUser : ForeignKey :=
  { name := "profiles_user", columns := ["id"], table := "users", foreignColumns := ["id"] }

/-- Profiles that share the key of the user whom they belong to. -/
def profilesShape : Shape :=
  { name := "profiles", columns := [{ name := "id", dataType := "bigint", udt := "int8" }]
    primaryKey := ["id"], foreignKeys := [profilesUser] }

/-- Of a key from one column `id` to another, both relationships join columns that there are not. -/
theorem shared_key_misjoined :
    (toFragment profilesShape [profilesShape, usersShape]).1 =
        .ok (pulled profilesShape [profilesShape, usersShape]) ∧
      (pulled profilesShape [profilesShape, usersShape]).relationships = [profilesUser.forward] ∧
      profilesUser.forward.foreignColumn "profiles" = "profile_id" ∧
      ¬ profilesUser.Followed "profiles" profilesUser.forward ∧
      (toFragment usersShape [profilesShape, usersShape]).1 =
        .ok (pulled usersShape [profilesShape, usersShape]) ∧
      (pulled usersShape [profilesShape, usersShape]).relationships = [profilesUser.reverse "profiles"] ∧
      (profilesUser.reverse "profiles").foreignColumn "users" = "user_id" ∧
      ¬ profilesUser.FollowedBack "users" (profilesUser.reverse "profiles") := by
  have hfollowed := profilesUser.followed_iff "profiles"
  have hback : profilesUser.FollowedBack "users" (profilesUser.reverse "profiles") ↔
      profilesUser.column ≠ "id" :=
    ForeignKey.followedBack_iff "users" "profiles" rfl
  exact ⟨rfl, rfl, by decide, fun h => hfollowed.mp h ⟨rfl, rfl⟩, rfl, rfl, by decide,
    fun h => hback.mp h rfl⟩

end Catalog

end TableLoom
