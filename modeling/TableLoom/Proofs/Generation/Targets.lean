import TableLoom.Generation.Package
import TableLoom.Proofs.Traversal

/-!
Relationships that lead to tables at hand find them, and the module of a table imports the modules of
the tables that it finds.
-/

namespace TableLoom.Generation

open Code (Module RecordClass)
open Schema (Table Relationship)

theorem findTable_ok {tables : List Table} {name : String} (h : name ∈ tables.map (·.name)) :
    ∃ t ∈ tables, t.name = name ∧ findTable tables name = .ok t := by
  obtain ⟨u, hu, rfl⟩ := List.mem_map.mp h
  have hfound : (tables.reverse.find? (·.name == u.name)).isSome := by
    rw [List.find?_isSome]
    exact ⟨u, List.mem_reverse.mpr hu, beq_self_eq_true _⟩
  obtain ⟨t, ht⟩ := Option.isSome_iff_exists.mp hfound
  refine ⟨t, List.mem_reverse.mp (List.mem_of_find?_eq_some ht), ?_, ?_⟩
  · simpa using List.find?_some ht
  · rw [findTable, ht]

/-- A relationship and the table that it leads to. -/
def Found (tables : List Table) (rel : Relationship) (x : Resolved) : Prop :=
  x.relationship = rel ∧ x.target ∈ tables ∧ x.target.name = rel.references.table

theorem resolve_ok {tables : List Table} {rels : List Relationship}
    (h : ∀ rel ∈ rels, rel.references.table ∈ tables.map (·.name)) :
    ∃ xs, resolve tables rels = .ok xs ∧ List.Forall₂ (Found tables) rels xs := by
  refine exists_mapM_paired fun rel hrel => ?_
  obtain ⟨t, ht, hname, hfound⟩ := findTable_ok (h rel hrel)
  exact ⟨⟨rel, t⟩, by rw [hfound]; rfl, rfl, ht, hname⟩

theorem relationships_of_found {tables : List Table} {rels : List Relationship} {xs : List Resolved}
    (h : List.Forall₂ (Found tables) rels xs) : xs.map (·.relationship) = rels := by
  induction h with
  | nil => rfl
  | cons hfound _ ih => rw [List.map_cons, hfound.1, ih]

theorem mem_relatedTables {t : Table} {rels : List Relationship} {name : String} :
    name ∈ relatedTables t rels ↔ name ≠ t.name ∧ ∃ rel ∈ rels, rel.references.table = name := by
  simp [relatedTables, Code.Imports.sorted, and_comm]

theorem classes_of_items {m : Module} {as : List Code.Assignment} {ks : List RecordClass}
    {fs : List Code.Function}
    (h : m.items = .constants as :: (ks.map Code.Item.record ++ fs.map Code.Item.function)) :
    m.classes = ks := by
  rw [Module.classes, h, List.filterMap_cons_none rfl, List.filterMap_append,
    List.filterMap_map, List.filterMap_map]
  simp

theorem items_linkedModule (c : Config) (t : Table) (xs : List Resolved) :
    (linkedModule c t xs).items = .constants (TableModule.constants t) ::
      ((TableModule.classes t xs).map Code.Item.record
        ++ (TableModule.functions t).map Code.Item.function) :=
  rfl

theorem siblings_linkedModule (c : Config) (t : Table) (xs : List Resolved) :
    (linkedModule c t xs).siblings =
      (relatedTables t (xs.map (·.relationship))).map fun name => ⟨name, Code.moduleAlias name⟩ :=
  rfl

theorem classes_linkedModule (c : Config) (t : Table) (xs : List Resolved) :
    (linkedModule c t xs).classes = TableModule.classes t xs :=
  classes_of_items (items_linkedModule c t xs)

theorem functions_linkedModule (c : Config) (t : Table) (xs : List Resolved) :
    (linkedModule c t xs).functions = TableModule.functions t := by
  rw [Module.functions, items_linkedModule, List.filterMap_cons_none rfl, List.filterMap_append,
    List.filterMap_map, List.filterMap_map]
  simp

/-- The classes of a module: the record, what is inserted and updated, the query, and the records with
one relation loaded or with all. -/
theorem mem_classes_sublist {t : Table} {xs : List Resolved} {k : RecordClass}
    (hk : k ∈ TableModule.classes t xs) :
    k ∈ [TableModule.recordClass t, TableModule.createClass t, TableModule.updateClass t,
      TableModule.queryClass t (xs.map (·.relationship))] ∨
    ∃ name, ∃ ys, ys.Sublist xs ∧ k = TableModule.variantClass t name ys := by
  simp only [TableModule.classes, List.mem_append, List.mem_cons, List.not_mem_nil, or_false] at hk ⊢
  rcases hk with ((hk | hk | hk) | hk) | hk
  · exact .inl (.inl hk)
  · exact .inl (.inr (.inl hk))
  · exact .inl (.inr (.inr (.inl hk)))
  · split at hk
    · cases hk
    · rcases List.mem_append.mp hk with hk | hk
      · obtain ⟨x, hx, rfl⟩ := List.mem_map.mp hk
        exact .inr ⟨_, [x], List.singleton_sublist.mpr hx, rfl⟩
      · exact .inr ⟨_, xs, List.Sublist.refl xs, List.mem_singleton.mp hk⟩
  · exact .inl (.inr (.inr (.inr hk)))

/-- The only classes that refer to records of other tables are those with relations loaded. -/
theorem mem_classes {t : Table} {xs : List Resolved} {k : RecordClass}
    (hk : k ∈ TableModule.classes t xs) :
    k ∈ [TableModule.recordClass t, TableModule.createClass t, TableModule.updateClass t,
      TableModule.queryClass t (xs.map (·.relationship))] ∨
    ∃ name, ∃ ys ⊆ xs, k = TableModule.variantClass t name ys :=
  (mem_classes_sublist hk).imp_right fun ⟨name, ys, hys, h⟩ => ⟨name, ys, hys.subset, h⟩

@[simp] theorem name_running (t : Table) (name method result : String) :
    (TableModule.running t name method result).name = name := by
  unfold TableModule.running
  split <;> rfl

@[simp] theorem name_findById (t : Table) (key : Schema.Field) :
    (TableModule.findById t key).name = "find_by_id" := by
  unfold TableModule.findById
  split <;> rfl

/-- The functions of a module: those on all rows, those on the row with a key, and one that inserts or
updates. -/
theorem mem_functions {t : Table} {f : Code.Function} (hf : f ∈ TableModule.functions t) :
    f ∈ [TableModule.query t, TableModule.insert t, TableModule.insertMany t, TableModule.findAll t,
      TableModule.count t, TableModule.truncate, TableModule.tableExists] ∨
    (∃ key, t.keyField? = some key ∧ (f = TableModule.findById t key ∨ f = TableModule.update t key ∨
      ∃ name ∈ ["delete", "soft_delete"], ∃ statement doc,
        f = TableModule.onKey key name statement doc)) ∨
    ∃ conflict, f = TableModule.upsert t conflict := by
  have hplain {fs : List Code.Function} (hf : f ∈ fs)
      (hsub : fs ⊆ [TableModule.query t, TableModule.insert t, TableModule.insertMany t,
        TableModule.findAll t, TableModule.count t, TableModule.truncate, TableModule.tableExists]) :=
    hsub hf
  unfold TableModule.functions at hf
  simp only [List.mem_append, List.mem_map, List.mem_flatMap, Option.mem_toList] at hf
  rcases hf with
    ((((((hf | hf) | ⟨key, hkey, rfl⟩) | hf) | hf) | ⟨key, hkey, hf⟩) | ⟨conflict, -, rfl⟩) | hf
  · exact .inl (hplain hf (by simp))
  · refine .inl (hplain hf ?_)
    split <;> simp
  · exact .inr (.inl ⟨key, hkey, .inl rfl⟩)
  · exact .inl (hplain hf (by simp))
  · split at hf
    · obtain ⟨key, hkey, rfl⟩ := List.mem_map.mp hf
      exact .inr (.inl ⟨key, Option.mem_toList.mp hkey, .inr (.inl rfl)⟩)
    · cases hf
  · refine .inr (.inl ⟨key, hkey, .inr (.inr ?_)⟩)
    rcases List.mem_cons.mp hf with rfl | hf
    · exact ⟨"delete", by simp, _, _, rfl⟩
    · split at hf
      · exact ⟨"soft_delete", by simp, _, _, List.mem_singleton.mp hf⟩
      · cases hf
  · exact .inr (.inr ⟨conflict, rfl⟩)
  · exact .inl (hplain hf (by simp))

end TableLoom.Generation
