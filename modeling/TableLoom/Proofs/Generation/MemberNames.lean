import TableLoom.Proofs.Generation.Rendering

/-!
The names of members and parameters in the module of an accepted table. The members of a class differ
from each other and from those that it inherits, and fields stay clear of what records have anyway.
Relations do not: a name that is taken can only be that of a relation, and parameters clash only where
a relation or the key is called like a parameter that is there anyway.
-/

namespace TableLoom

namespace Schema

theorem startsWith_mono {head s s' : String} (h : s'.toList <+: s.toList)
    (starts : startsWith head s' = true) : startsWith head s = true := by
  rw [startsWith, List.isPrefixOf_iff_prefix] at starts ⊢
  exact starts.trans h

namespace Registry

variable {r : Registry} {t : Table}

theorem table_starts (ht : t ∈ r.examine.tables) {rel : Relationship} (hrel : rel ∈ t.relationships) :
    startsWith "_" rel.references.table = false := by
  have htarget := target_mem_accepted ht hrel
  rw [← names_tables] at htarget
  obtain ⟨target, hmem, hname⟩ := List.mem_map.mp htarget
  obtain ⟨_, _, _, _, -, hpasses⟩ := mem_tables hmem
  exact hname ▸ hpasses.names.2.2

theorem column_starts (ht : t ∈ r.examine.tables) {rel : Relationship} (hrel : rel ∈ t.relationships) :
    startsWith "_" rel.column = false ∧ startsWith "model_" rel.column = false := by
  obtain ⟨_, _, _, _, -, hpasses⟩ := mem_tables ht
  obtain ⟨f, hf, hname⟩ := Table.exists_of_hasField (hpasses.relationships rel hrel).1
  have hfree := (hpasses.fields f hf).2
  simp only [isReservedMember, Bool.or_eq_false_iff] at hfree
  exact hname ▸ ⟨hfree.1.2, hfree.2⟩

/-- A relation is called after its column or after the table that it leads to, so its name begins as
that of a field does or as that of a table. -/
theorem member_starts (ht : t ∈ r.examine.tables) {rel : Relationship} (hrel : rel ∈ t.relationships) :
    startsWith "_" rel.member = false ∧
      (startsWith "model_" rel.member = true → rel.isMany = true ∨ rel.isReverse = true) := by
  have hnot {head s s' : String} (h : s'.toList <+: s.toList) (starts : startsWith head s = false) :
      startsWith head s' = false :=
    Bool.eq_false_iff.mpr fun hstarts => Bool.eq_false_iff.mp starts (startsWith_mono h hstarts)
  have htable := table_starts ht hrel
  obtain ⟨hunderscore, hmodel⟩ := column_starts ht hrel
  unfold Relationship.member Naming.relationMember
  split
  · next hmany => exact ⟨htable, fun _ => .inl hmany⟩
  · split
    · next hreverse => exact ⟨hnot (Naming.prefix_singular _) htable, fun _ => .inr hreverse⟩
    · refine ⟨hnot (Naming.prefix_keyStem _) hunderscore, fun hstarts => ?_⟩
      rw [hnot (Naming.prefix_keyStem _) hmodel] at hstarts
      cases hstarts

end Registry

end Schema

namespace Code

/-- The functions of a class. -/
def RecordClass.methods (k : RecordClass) : List Function :=
  k.sections.flatMap fun
    | .method f => [f]
    | _ => []

end Code

namespace Generation

open Code (Binding Function Module RecordClass)
open Schema (Field Table Relationship)

/-- The key is called like a parameter that a function has beside it. -/
def KeyClash (t : Table) (f : Function) : Prop :=
  ∃ key, t.keyField? = some key ∧
    (f.name = "find_by_id" ∧ t.hasSoftDelete = true ∧ key.name = "include_deleted" ∨
      f.name = "update" ∧ key.name = "changes")

/-- A class with one relation, which is called like a parameter that its maker has beside it. -/
def RelationClash (c : Config) (t : Table) (k : RecordClass) (f : Function) : Prop :=
  f.name = "from_base" ∧ ∃ rel ∈ c.variants t, k.members.map (·.name) = [rel.member] ∧
    rel.member ∈ ["cls", "base"]

/-- How the members and parameters of a module are named. -/
structure MemberNames (c : Config) (t : Table) (m : Module) : Prop where
  distinct : ∀ k ∈ m.classes, (k.members.map (·.name)).Nodup
  inherited : ∀ k ∈ m.classes, k.base = t.recordName → (t.fieldNames ++ k.members.map (·.name)).Nodup
  plain : ∀ k ∈ m.classes, ∀ b ∈ k.members, Schema.startsWith "_" b.name = false
  taken : ∀ k ∈ m.classes, ∀ b ∈ k.members, Schema.isReservedMember b.name = true →
    k.base = t.recordName ∧ ∃ rel ∈ c.variants t, b.name = rel.member ∧
      (rel.member ∈ Schema.reservedMembers ∨
        Schema.startsWith "model_" rel.member = true ∧ (rel.isMany = true ∨ rel.isReverse = true))
  parameters : ∀ f ∈ m.functions, f.signature.names.Nodup ↔ ¬ KeyClash t f
  methods : ∀ k ∈ m.classes, ∀ f ∈ k.methods, f.signature.names.Nodup ↔ ¬ RelationClash c t k f

section

variable {c : Config} {r : Schema.Registry} {t : Table} {xs ys : List Resolved}

@[simp] theorem name_inputMember (f : Field) : (TableModule.inputMember f).name = f.name := by
  unfold TableModule.inputMember
  split <;> rfl

@[simp] theorem members_inputClass (name doc : String) (members : List Binding) :
    (TableModule.inputClass name doc members).members = members := by
  cases members <;> simp [TableModule.inputClass, RecordClass.members]

@[simp] theorem methods_inputClass (name doc : String) (members : List Binding) :
    (TableModule.inputClass name doc members).methods = [] := by
  cases members <;> simp [TableModule.inputClass, RecordClass.methods]

theorem members_variantClass (t : Table) (name : String) (ys : List Resolved) :
    (TableModule.variantClass t name ys).members.map (·.name) =
      (ys.map (·.relationship)).map (·.member) := by
  simp [TableModule.variantClass, RecordClass.members, TableModule.relationMember]

/-- The classes without relations have fields for their members. -/
theorem members_sublist {k : RecordClass}
    (hk : k ∈ [TableModule.recordClass t, TableModule.createClass t, TableModule.updateClass t,
      TableModule.queryClass t (xs.map (·.relationship))]) :
    (k.members.map (·.name)).Sublist t.fieldNames ∧ k.base ∈ Schema.reservedRecords := by
  have hinputs : (t.inputFields.map (·.name)).Sublist t.fieldNames := List.filter_sublist.map _
  have hnames (f : Field → Binding) (same : ∀ x, (f x).name = x.name) (fields : List Field) :
      (fields.map f).map (·.name) = fields.map (·.name) := by
    rw [List.map_map]
    exact List.map_congr_left fun x _ => same x
  have hbases : "BaseModel" ∈ Schema.reservedRecords ∧ "QueryBuilder" ∈ Schema.reservedRecords := by
    decide
  simp only [List.mem_cons, List.not_mem_nil, or_false] at hk
  rcases hk with rfl | rfl | rfl | rfl
  · have hrecord : (TableModule.recordClass t).members = t.fields.map TableModule.recordMember := by
      simp [TableModule.recordClass, RecordClass.members]
    rw [hrecord, hnames _ fun _ => rfl]
    exact ⟨List.Sublist.refl _, hbases.1⟩
  · rw [TableModule.createClass, members_inputClass, hnames _ name_inputMember]
    exact ⟨hinputs, hbases.1⟩
  · rw [TableModule.updateClass, members_inputClass, hnames _ fun _ => rfl]
    exact ⟨hinputs, hbases.1⟩
  · exact ⟨List.nil_sublist _, hbases.2⟩

/-- The members of a class are fields, or relations beside the fields that it inherits. -/
theorem members_cases (ht : t ∈ r.examine.tables)
    (hfound : List.Forall₂ (Found r.examine.tables) (c.variants t) xs) {k : RecordClass}
    (hk : k ∈ (linkedModule c t xs).classes) :
    (k.members.map (·.name)).Sublist t.fieldNames ∧ k.base ≠ t.recordName ∨
      k.base = t.recordName ∧ ∃ rels : List Relationship, rels.Sublist (c.variants t) ∧
        k.members.map (·.name) = rels.map (·.member) := by
  obtain ⟨_, _, _, _, -, hpasses⟩ := Schema.Registry.mem_tables ht
  rw [classes_linkedModule] at hk
  rcases mem_classes_sublist hk with hk | ⟨name, ys, hys, rfl⟩
  · obtain ⟨hmembers, hbase⟩ := members_sublist hk
    exact .inl ⟨hmembers, fun heq => hpasses.record.2 (heq ▸ hbase)⟩
  · refine .inr ⟨rfl, ys.map (·.relationship), ?_, members_variantClass t name ys⟩
    rw [← relationships_of_found hfound]
    exact hys.map _

/-- A relation with a name that is taken has one of the fixed names, or one that a table lent it. -/
theorem taken_member (ht : t ∈ r.examine.tables) {rel : Relationship} (hrel : rel ∈ t.relationships)
    (taken : Schema.isReservedMember rel.member = true) :
    rel.member ∈ Schema.reservedMembers ∨
      Schema.startsWith "model_" rel.member = true ∧ (rel.isMany = true ∨ rel.isReverse = true) := by
  obtain ⟨_, _, _, _, -, hpasses⟩ := Schema.Registry.mem_tables ht
  obtain ⟨hunderscore, hmodel⟩ := Schema.Registry.member_starts ht hrel
  have hkeyword : Code.isKeyword rel.member = false := by
    have hname := (Bool.and_eq_true_iff.mp (hpasses.relationships rel hrel).2).2
    simpa using hname
  rw [Schema.isReservedMember, hkeyword, hunderscore, Bool.false_or, Bool.or_false, Bool.or_eq_true,
    List.contains_iff_mem] at taken
  exact taken.imp_right fun hstarts => ⟨hstarts, hmodel hstarts⟩

theorem fields_apart (ht : t ∈ r.examine.tables) : "db" ∉ t.fieldNames := by
  obtain ⟨_, _, _, _, -, hpasses⟩ := Schema.Registry.mem_tables ht
  intro hmem
  obtain ⟨f, hf, hname⟩ := List.mem_map.mp hmem
  have hfree := (hpasses.fields f hf).2
  rw [hname] at hfree
  exact absurd hfree (by decide +kernel)

theorem names_writing (t : Table) (name statement doc : String) :
    (TableModule.writing t name statement doc).signature.names =
      "db" :: t.inputFields.map (·.name) := by
  simp [TableModule.writing, Code.Signature.names, TableModule.database, Function.comp_def]

theorem nodup_writing (ht : t ∈ r.examine.tables) (name statement doc : String) :
    (TableModule.writing t name statement doc).signature.names.Nodup := by
  have hinputs : (t.inputFields.map (·.name)).Sublist t.fieldNames := List.filter_sublist.map _
  rw [names_writing, List.nodup_cons]
  exact ⟨fun hmem => fields_apart ht (hinputs.subset hmem),
    (List.nodup_append'.mp (Schema.Registry.nodup_members ht)).1.sublist hinputs⟩

theorem nodup_running (t : Table) (name method result : String) :
    (TableModule.running t name method result).signature.names.Nodup := by
  unfold TableModule.running
  split <;> simp [Code.Signature.names, TableModule.database, TableModule.withDeleted]

/-- A function that does not take the key, or takes nothing beside it, has parameters of its own. -/
theorem nodup_iff_of_unkeyed {f : Function} (nodup : f.signature.names.Nodup)
    (hname : f.name ∉ ["find_by_id", "update"]) : f.signature.names.Nodup ↔ ¬ KeyClash t f := by
  refine iff_of_true nodup ?_
  rintro ⟨key, -, ⟨heq, -⟩ | ⟨heq, -⟩⟩ <;> exact hname (by simp [heq])

theorem names_findById (t : Table) (key : Field) : (TableModule.findById t key).signature.names =
    "db" :: key.name :: if t.hasSoftDelete then ["include_deleted"] else [] := by
  unfold TableModule.findById
  split
  · rfl
  · rfl

/-- The functions of an accepted table have parameters of different names, unless the key is called like
one that stands beside it. -/
theorem parameters_distinct (ht : t ∈ r.examine.tables) {f : Function}
    (hf : f ∈ TableModule.functions t) : f.signature.names.Nodup ↔ ¬ KeyClash t f := by
  have hdb {key : Field} (hkey : t.keyField? = some key) : "db" ≠ key.name := fun heq =>
    fields_apart ht (heq ▸ List.mem_map_of_mem (Schema.Table.mem_of_keyField? hkey))
  rcases mem_functions hf with
    hf | ⟨key, hkey, rfl | rfl | ⟨name, hname, statement, doc, rfl⟩⟩ | ⟨conflict, rfl⟩
  · simp only [List.mem_cons, List.not_mem_nil, or_false] at hf
    rcases hf with rfl | rfl | rfl | rfl | rfl | rfl | rfl
    · exact nodup_iff_of_unkeyed List.nodup_nil (by simp [TableModule.query])
    · exact nodup_iff_of_unkeyed (nodup_writing ht ..)
        (by simp [TableModule.insert, TableModule.writing])
    · exact nodup_iff_of_unkeyed (by decide : ["db", "rows"].Nodup) (by simp [TableModule.insertMany])
    · exact nodup_iff_of_unkeyed (nodup_running ..) (by simp [TableModule.findAll])
    · exact nodup_iff_of_unkeyed (nodup_running ..) (by simp [TableModule.count])
    · exact nodup_iff_of_unkeyed (List.nodup_singleton "db") (by simp [TableModule.truncate])
    · exact nodup_iff_of_unkeyed (List.nodup_singleton "db") (by simp [TableModule.tableExists])
  · have hclash : KeyClash t (TableModule.findById t key) ↔
        t.hasSoftDelete = true ∧ key.name = "include_deleted" := by
      simp [KeyClash, hkey]
    rw [names_findById, hclash]
    by_cases hsoft : t.hasSoftDelete = true
    · simp [hsoft, hdb hkey]
    · simp [hsoft, hdb hkey]
  · have hclash : KeyClash t (TableModule.update t key) ↔ key.name = "changes" := by
      simp [KeyClash, hkey, TableModule.update]
    have hnames : (TableModule.update t key).signature.names = ["db", key.name, "changes"] := rfl
    simp [hnames, hclash, hdb hkey]
  · have hnames : (TableModule.onKey key name statement doc).signature.names = ["db", key.name] := rfl
    refine nodup_iff_of_unkeyed (by simp [hnames, hdb hkey]) ?_
    have hapart : ∀ name ∈ ["delete", "soft_delete"], name ∉ ["find_by_id", "update"] := by decide
    exact hapart name hname
  · exact nodup_iff_of_unkeyed (nodup_writing ht ..) (by simp [TableModule.upsert, TableModule.writing])

theorem nodup_fromBase (t : Table) (name : String) (ys : List Resolved) :
    (TableModule.fromBase t name ys).signature.names.Nodup ↔
      ∀ y, ys = [y] → y.relationship.member ∉ ["cls", "base"] := by
  match ys with
  | [] => exact iff_of_true (by decide : ["cls", "base", "relations"].Nodup) (by simp)
  | [y] =>
      have hnames : (TableModule.fromBase t name [y]).signature.names =
          ["cls", "base", y.relationship.member] := rfl
      simp [hnames, eq_comm]
  | _ :: _ :: _ => exact iff_of_true (by decide : ["cls", "base", "relations"].Nodup) (by simp)

@[simp] theorem name_fromBase (t : Table) (name : String) (ys : List Resolved) :
    (TableModule.fromBase t name ys).name = "from_base" := by
  unfold TableModule.fromBase
  split <;> rfl

theorem relationClash_fromBase (hfound : List.Forall₂ (Found r.examine.tables) (c.variants t) xs)
    (name : String) {ys : List Resolved} (hys : ys.Sublist xs) :
    RelationClash c t (TableModule.variantClass t name ys) (TableModule.fromBase t name ys) ↔
      ∃ y, ys = [y] ∧ y.relationship.member ∈ ["cls", "base"] := by
  rw [RelationClash, name_fromBase, members_variantClass, List.map_map]
  constructor
  · rintro ⟨-, rel, -, hmembers, hmember⟩
    obtain ⟨y, rfl, heq⟩ := List.map_eq_singleton_iff.mp hmembers
    exact ⟨y, rfl, (show y.relationship.member = rel.member from heq) ▸ hmember⟩
  · rintro ⟨y, rfl, hmember⟩
    have hvariant : y.relationship ∈ c.variants t := by
      rw [← relationships_of_found hfound]
      exact List.mem_map_of_mem (List.singleton_sublist.mp hys)
    exact ⟨rfl, y.relationship, hvariant, rfl, hmember⟩

/-- The functions of a class: those that take a row or nothing, and the one that makes a record with
relations loaded. -/
theorem mem_methods {k : RecordClass} (hk : k ∈ TableModule.classes t xs) {f : Function}
    (hf : f ∈ k.methods) :
    (f.name = "from_row" ∧ f.signature.names = ["cls", "row"]) ∨
      (f.name = "to_base" ∧ f.signature.names = ["self"]) ∨
      ∃ name ys, ys.Sublist xs ∧ k = TableModule.variantClass t name ys ∧
        f = TableModule.fromBase t name ys := by
  rcases mem_classes_sublist hk with hk | ⟨name, ys, hys, rfl⟩
  · simp only [List.mem_cons, List.not_mem_nil, or_false] at hk
    rcases hk with rfl | rfl | rfl | rfl
    · simp only [TableModule.recordClass, RecordClass.methods, List.flatMap_cons, List.flatMap_nil,
        List.nil_append, List.append_nil, List.mem_singleton] at hf
      exact .inl (hf ▸ ⟨rfl, rfl⟩)
    · rw [TableModule.createClass, methods_inputClass] at hf
      cases hf
    · rw [TableModule.updateClass, methods_inputClass] at hf
      cases hf
    · cases hf
  · simp only [TableModule.variantClass, RecordClass.methods, List.flatMap_cons, List.flatMap_nil,
      List.nil_append, List.append_nil, List.singleton_append, List.mem_cons, List.not_mem_nil,
      or_false] at hf
    rcases hf with rfl | rfl | rfl
    · exact .inr (.inr ⟨name, ys, hys, rfl, rfl⟩)
    · exact .inr (.inl ⟨rfl, rfl⟩)
    · exact .inl ⟨rfl, rfl⟩

/-- The functions of a class have parameters of different names, unless its one relation is called like
one of them. -/
theorem methods_distinct (hfound : List.Forall₂ (Found r.examine.tables) (c.variants t) xs)
    {k : RecordClass} (hk : k ∈ (linkedModule c t xs).classes) {f : Function} (hf : f ∈ k.methods) :
    f.signature.names.Nodup ↔ ¬ RelationClash c t k f := by
  have hother (nodup : f.signature.names.Nodup) (hname : f.name ≠ "from_base") :
      f.signature.names.Nodup ↔ ¬ RelationClash c t k f :=
    iff_of_true nodup fun h => hname h.1
  rw [classes_linkedModule] at hk
  rcases mem_methods hk hf with ⟨hname, hnames⟩ | ⟨hname, hnames⟩ | ⟨name, ys, hys, rfl, rfl⟩
  · exact hother (hnames ▸ by decide) (hname ▸ by decide)
  · exact hother (hnames ▸ List.nodup_singleton "self") (hname ▸ by decide)
  · rw [nodup_fromBase, relationClash_fromBase hfound name hys]
    push Not
    rfl

/-- Every relation has a class with it alone, whose maker has a parameter of its name. -/
theorem exists_variantClass (hfound : List.Forall₂ (Found r.examine.tables) (c.variants t) xs)
    {rel : Relationship} (hrel : rel ∈ c.variants t) :
    ∃ k ∈ (linkedModule c t xs).classes, k.members.map (·.name) = [rel.member] ∧
      ∃ f ∈ k.methods, f.name = "from_base" ∧ f.signature.names = ["cls", "base", rel.member] := by
  rw [← relationships_of_found hfound] at hrel
  obtain ⟨x, hx, rfl⟩ := List.mem_map.mp hrel
  refine ⟨TableModule.variantClass t (t.variantName x.relationship) [x], ?_,
    members_variantClass t _ [x], TableModule.fromBase t (t.variantName x.relationship) [x], ?_, rfl,
    rfl⟩
  · rw [classes_linkedModule, TableModule.classes, if_neg (by simpa using List.ne_nil_of_mem hx)]
    exact List.mem_append_left _ (List.mem_append_right _ (List.mem_append_left _
      (List.mem_map.mpr ⟨x, hx, rfl⟩)))
  · simp [TableModule.variantClass, RecordClass.methods]

theorem distinct_members (ht : t ∈ r.examine.tables)
    (hfound : List.Forall₂ (Found r.examine.tables) (c.variants t) xs) {k : RecordClass}
    (hk : k ∈ (linkedModule c t xs).classes) :
    (k.members.map (·.name)).Nodup ∧
      (k.base = t.recordName → (t.fieldNames ++ k.members.map (·.name)).Nodup) := by
  have hnodup := Schema.Registry.nodup_members ht
  -- Both kinds of members are part of one list without repetition: the fields, then all relations.
  rcases members_cases ht hfound hk with ⟨hmembers, hbase⟩ | ⟨-, rels, hrels, hmembers⟩
  · exact ⟨(List.nodup_append'.mp hnodup).1.sublist hmembers, fun heq => absurd heq hbase⟩
  · have hall : (t.fieldNames ++ k.members.map (·.name)).Nodup := by
      rw [hmembers]
      exact hnodup.sublist (((hrels.trans (variants_sublist c t)).map _).append_left _)
    exact ⟨(List.nodup_append'.mp hall).2.1, fun _ => hall⟩

/-- A member is a field with a name that is free, or a relation of a class that has the record for its
base. -/
theorem member_cases (ht : t ∈ r.examine.tables)
    (hfound : List.Forall₂ (Found r.examine.tables) (c.variants t) xs) {k : RecordClass}
    (hk : k ∈ (linkedModule c t xs).classes) {b : Binding} (hb : b ∈ k.members) :
    Schema.isReservedMember b.name = false ∨
      k.base = t.recordName ∧ ∃ rel ∈ c.variants t, b.name = rel.member := by
  obtain ⟨_, _, _, _, -, hpasses⟩ := Schema.Registry.mem_tables ht
  have hname : b.name ∈ k.members.map (·.name) := List.mem_map_of_mem hb
  rcases members_cases ht hfound hk with ⟨hmembers, -⟩ | ⟨hbase, rels, hrels, hmembers⟩
  · obtain ⟨f, hf, heq⟩ := List.mem_map.mp (hmembers.subset hname)
    exact .inl (heq ▸ (hpasses.fields f hf).2)
  · rw [hmembers] at hname
    obtain ⟨rel, hrel, heq⟩ := List.mem_map.mp hname
    exact .inr ⟨hbase, rel, hrels.subset hrel, heq.symm⟩

/-- In every class of an accepted table's module the members differ, also from inherited ones, and none
begins with an underscore. A name that is taken is that of a relation, and is one of the fixed names or
lent by the other table. Parameters differ, unless the key is called `include_deleted` or `changes` or
the one relation of a class `cls` or `base`. -/
theorem members_well_named (c : Config) (ht : t ∈ r.examine.tables) :
    ∃ m, tableModule c t r.examine.tables = .ok m ∧ MemberNames c t m := by
  obtain ⟨xs, hmodule, hfound⟩ := tableModule_ok (c := c) ht
  refine ⟨_, hmodule, ?_⟩
  constructor
  case distinct => exact fun k hk => (distinct_members ht hfound hk).1
  case inherited => exact fun k hk => (distinct_members ht hfound hk).2
  case plain =>
    intro k hk b hb
    rcases member_cases ht hfound hk hb with hfree | ⟨-, rel, hrel, heq⟩
    · simp only [Schema.isReservedMember, Bool.or_eq_false_iff] at hfree
      exact hfree.1.2
    · exact heq ▸ (Schema.Registry.member_starts ht (variants_subset c t hrel)).1
  case taken =>
    intro k hk b hb htaken
    rcases member_cases ht hfound hk hb with hfree | ⟨hbase, rel, hrel, heq⟩
    · rw [hfree] at htaken
      cases htaken
    · exact ⟨hbase, rel, hrel, heq, taken_member ht (variants_subset c t hrel) (heq ▸ htaken)⟩
  case parameters =>
    intro f hf
    rw [functions_linkedModule] at hf
    exact parameters_distinct ht hf
  case methods => exact fun k hk f hf => methods_distinct hfound hk hf

end

section

open Schema (Registry)

theorem members_well_named_posts :
    ∃ m, tableModule {} posts blog.examine.tables = .ok m ∧
      (∀ k ∈ m.classes, ∀ b ∈ k.members, Schema.isReservedMember b.name = false) ∧
      (∀ f ∈ m.functions, f.signature.names.Nodup) ∧
      ∀ k ∈ m.classes, ∀ f ∈ k.methods, f.signature.names.Nodup := by
  obtain ⟨m, hmodule, hnames⟩ := members_well_named {} (r := blog) (t := posts) (by decide +kernel)
  have honly : ∀ rel ∈ ({} : Config).variants posts, rel.member = "user" := by decide +kernel
  refine ⟨m, hmodule, fun k hk b hb => ?_, fun f hf => (hnames.parameters f hf).mpr ?_,
    fun k hk f hf => (hnames.methods k hk f hf).mpr ?_⟩
  · by_contra htaken
    obtain ⟨-, rel, hrel, heq, -⟩ := hnames.taken k hk b hb (by simpa using htaken)
    rw [heq, honly rel hrel] at htaken
    exact htaken (by decide +kernel)
  · rintro ⟨key, hkey, hclash⟩
    have hid : posts.keyField?.all (·.name == "id") = true := by decide +kernel
    rw [hkey] at hid
    have hname : key.name = "id" := by simpa using hid
    rw [hname] at hclash
    simp at hclash
  · rintro ⟨-, rel, hrel, -, hmember⟩
    rw [honly rel hrel] at hmember
    exact absurd hmember (by decide)

/-- Posts with keys that leave relations with the names of a parameter and of a method. -/
def based : Table :=
  { name := "posts"
    fields := [keyField, { name := "base_id", type := ⟨.i64, false⟩ },
      { name := "from_row_id", type := ⟨.i64, false⟩ }]
    relationships := [{ column := "base_id", references := { table := "users" } },
      { column := "from_row_id", references := { table := "users" } }] }

def basedPosts : Registry where
  entries := [
    { table := "users", fragments := [{ table := "users", fields := [keyField] }] },
    { table := "posts"
      fragments := [{ table := "posts", fields := based.fields
                      relationships := based.relationships }] }]
  distinct := by decide

/-- An accepted table with a class whose member is called like its method, and one with a method that
has the parameter `base` twice. -/
theorem members_ill_named :
    basedPosts.examine.accepted = ["users", "posts"] ∧ based ∈ basedPosts.examine.tables ∧
      ∃ m, tableModule {} based basedPosts.examine.tables = .ok m ∧
        (∃ k ∈ m.classes, ∃ b ∈ k.members, b.name ∈ Schema.reservedMembers) ∧
        ∃ k ∈ m.classes, ∃ f ∈ k.methods, f.name = "from_base" ∧
          f.signature.names = ["cls", "base", "base"] := by
  have haccepted : based ∈ basedPosts.examine.tables := by decide +kernel
  obtain ⟨xs, hmodule, hfound⟩ := tableModule_ok (c := {}) haccepted
  have hbase : { column := "base_id", references := { table := "users" } } ∈
      ({} : Config).variants based := by
    decide +kernel
  have hrow : { column := "from_row_id", references := { table := "users" } } ∈
      ({} : Config).variants based := by
    decide +kernel
  refine ⟨by decide +kernel, haccepted, _, hmodule, ?_, ?_⟩
  · obtain ⟨k, hk, hmembers, -⟩ := exists_variantClass hfound hrow
    obtain ⟨b, hb, hname⟩ : ∃ b ∈ k.members, b.name = "from_row" :=
      List.mem_map.mp (hmembers ▸ List.mem_singleton.mpr (by decide +kernel))
    exact ⟨k, hk, b, hb, hname ▸ by decide +kernel⟩
  · obtain ⟨k, hk, -, f, hf, hname, hnames⟩ := exists_variantClass hfound hbase
    exact ⟨k, hk, f, hf, hname, hnames.trans (by decide +kernel)⟩

end

end Generation

end TableLoom
