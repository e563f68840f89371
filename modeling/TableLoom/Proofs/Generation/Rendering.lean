import TableLoom.Generation.Pipeline
import TableLoom.Proofs.Check.Entries
import TableLoom.Proofs.Generation.Legible
import TableLoom.Proofs.Schema.Acceptance

/-!
The accepted tables of a registry are rendered without fail. Whatever the files of the package import
or refer to has a file of its own among them, and no two files have one path.
-/

namespace TableLoom

theorem Check.text_iff {s : String} : text (.text s) = .fits s ↔ Text.Legible s := by
  rw [text_text, Text.hasHalf_eq_false, and_iff_right rfl]

namespace Schema

/-- The free texts of the fragment are texts that reading data lets pass. -/
def Fragment.Legible (f : Fragment) : Prop :=
  (∀ field ∈ f.fields ++ f.alters, ∀ d ∈ field.default, Check.text (.text d) = .fits d) ∧
    ∀ rel ∈ f.relationships, Check.text (.text rel.references.column) = .fits rel.references.column

namespace Registry

variable {r : Registry}

def Legible (r : Registry) : Prop :=
  ∀ e ∈ r.entries, ∀ f ∈ e.fragments, f.Legible

theorem ascii_name {t : Table} (ht : t ∈ r.examine.tables) : Text.Ascii t.name := by
  obtain ⟨-, -, -, -, -, hpasses⟩ := mem_tables ht
  exact Text.ascii_of_isIdentifier (Bool.and_eq_true_iff.mp hpasses.names.1).1

theorem ascii_field {t : Table} (ht : t ∈ r.examine.tables) {f : Field} (hf : f ∈ t.fields) :
    Text.Ascii f.name := by
  obtain ⟨-, -, -, -, -, hpasses⟩ := mem_tables ht
  exact Text.ascii_of_isIdentifier (hpasses.fieldNames f hf)

theorem legible_default {e : Entry} {m : Merged} (hm : e.Amounts m)
    (legible : ∀ f ∈ e.fragments, f.Legible) {f : Field} (hf : f ∈ m.table.fields) {d : String}
    (hd : d ∈ f.default) : Text.Legible d := by
  -- A field is as it was declared, or as the last of its alterations has it.
  have hsource : f ∈ e.base ∨ f ∈ e.alters := by
    rw [hm.fields] at hf
    obtain ⟨declared, hdeclared, rfl⟩ := List.mem_map.mp hf
    cases hlast : lastNamed e.alters declared.name with
    | none => exact .inl hdeclared
    | some a => exact .inr (List.mem_filter.mp (List.mem_of_getLast? hlast)).1
  rw [← Check.text_iff]
  rcases hsource with hf | hf
  · obtain ⟨fragment, hfragment, hf⟩ := List.mem_flatMap.mp hf
    exact (legible fragment hfragment).1 f (List.mem_append_left _ hf) d hd
  · obtain ⟨fragment, hfragment, hf⟩ := List.mem_flatMap.mp hf
    exact (legible fragment hfragment).1 f (List.mem_append_right _ hf) d hd

theorem writable {t : Table} (ht : t ∈ r.examine.tables) (legible : r.Legible) : t.Writable := by
  obtain ⟨e, he, m, hmerge, rfl, hpasses⟩ := mem_tables ht
  have hamounts := Entry.amounts_of_merge hmerge
  have hname {s : String} (hs : isName s = true) : Text.Ascii s :=
    Text.ascii_of_isIdentifier (Bool.and_eq_true_iff.mp hs).1
  refine ⟨hname hpasses.names.1, hname hpasses.recordName, fun f hf => ascii_field ht hf,
    fun f hf d hd => legible_default hamounts (legible e he) hf hd, ?_,
    fun rel hrel => hname (hpasses.relationships rel hrel).2, ?_, ?_⟩
  · intro rel hrel
    obtain ⟨f, hf, hcolumn⟩ := Table.exists_of_hasField (hpasses.relationships rel hrel).1
    exact hcolumn ▸ ascii_field ht hf
  · intro rel hrel
    obtain ⟨u, hu, htarget⟩ := exists_table (target_mem_accepted ht hrel)
    exact htarget ▸ ascii_name hu
  · intro rel hrel
    rw [hamounts.relationships] at hrel
    obtain ⟨fragment, hfragment, hrel⟩ := List.mem_flatMap.mp hrel
    exact Check.text_iff.mp ((legible e he fragment hfragment).2 rel hrel)

end Registry

end Schema

namespace Generation

open Schema (Registry Table)

namespace SourceFile

/-- The data that a file is made from. -/
def given (f : SourceFile) : Value :=
  .ofFields ([("path", .text f.path), ("content", .text f.content)]
    ++ (f.table.map fun n => ("table_name", .text n)).toList)

end SourceFile

theorem variants_sublist (c : Config) (t : Table) : (c.variants t).Sublist t.relationships := by
  unfold Config.variants
  split
  · exact List.Sublist.refl _
  · exact List.nil_sublist _

theorem variants_subset (c : Config) (t : Table) : c.variants t ⊆ t.relationships :=
  (variants_sublist c t).subset

def moduleFile (c : Config) (t : Table) (variants : List Resolved) : SourceFile :=
  { path := tablePath t.name, content := (linkedModule c t variants).text c.style
    table := some t.name }

/-- The files beside the tables' own. -/
def sharedFiles (c : Config) (tables : List Table) : List SourceFile :=
  (if c.registry then [{ path := registryPath, content := registryText c tables }] else [])
    ++ [{ path := packagePath, content := packageText c tables }]

/-- The file of a table whose relationships have found their targets. -/
def Rendered (c : Config) (tables : List Table) (t : Table) (f : SourceFile) : Prop :=
  ∃ variants, resolve tables (c.variants t) = .ok variants ∧
    List.Forall₂ (Found tables) (c.variants t) variants ∧ f = moduleFile c t variants

theorem renderFiles_ok {c : Config} {tables : List Table}
    (known : ∀ t ∈ tables, ∀ rel ∈ c.variants t, rel.references.table ∈ tables.map (·.name)) :
    ∃ modules, renderFiles c tables = .ok (modules ++ sharedFiles c tables) ∧
      List.Forall₂ (Rendered c tables) tables modules := by
  have hfile (t : Table) (ht : t ∈ tables) : ∃ f, (do
      return ({ path := tablePath t.name, content := ← tableText c t tables, table := some t.name }
        : SourceFile)) = Except.ok f ∧ Rendered c tables t f := by
    obtain ⟨variants, hresolve, hfound⟩ := resolve_ok (known t ht)
    refine ⟨moduleFile c t variants, ?_, variants, hresolve, hfound, rfl⟩
    rw [tableText, tableModule, hresolve]
    rfl
  obtain ⟨modules, hmodules, hall⟩ := exists_mapM_paired hfile
  refine ⟨modules, ?_, hall⟩
  rw [renderFiles, hmodules, sharedFiles, ← List.append_assoc]
  rfl

theorem tablePath_injective {m n : String} (h : tablePath m = tablePath n) : m = n := by
  have hchars := congrArg String.toList h
  simp only [tablePath, String.toList_append] at hchars
  exact String.toList_inj.mp (List.append_cancel_right hchars)

/-- The table of the name is accepted, and its own file is among the files. -/
def HasFile (r : Registry) (files : List SourceFile) (name : String) : Prop :=
  name ∈ r.examine.accepted ∧ ∃ f ∈ files, f.table = some name ∧ f.path = tablePath name

/-- How the registry names a table: alone, or with something, or several things, of its module. -/
inductive Named (name : String) : String → Prop
  | alone : Named name (Text.sourceQuoted name)
  | one (thing : String) : Named name (Text.sourceQuoted name ++ s!": {name}.{thing}")
  | several (things : List String) : Named name (Text.sourceQuoted name ++ ": ["
      ++ Text.join ", " (things.map fun thing => s!"{name}.{thing}") ++ "]")

/-- What the module of a table imports and refers to has files. -/
structure Linked (r : Registry) (files : List SourceFile) (t : Table) (variants : List Resolved)
    (m : Code.Module) : Prop where
  siblings : ∀ s ∈ m.siblings, HasFile r files s.module ∧ s.alias_ = Code.moduleAlias s.module
  targets : ∀ x ∈ variants, HasFile r files x.target.name ∧
    x.target.name = x.relationship.references.table ∧
    ((x.target.name = t.name ∧ t.recordReference x.target = x.target.recordName) ∨
      ∃ s ∈ m.siblings, s.module = x.target.name ∧
        t.recordReference x.target = s!"{s.alias_}.{x.target.recordName}")
  /-- Only classes made from these variants refer to records of other tables. -/
  classes : ∀ k ∈ m.classes,
    k ∈ [TableModule.recordClass t, TableModule.createClass t, TableModule.updateClass t,
      TableModule.queryClass t (variants.map (·.relationship))] ∨
    ∃ name, ∃ xs ⊆ variants, k = TableModule.variantClass t name xs

/-- The files make up a whole package of the accepted tables. -/
structure Complete (r : Registry) (c : Config) (files : List SourceFile) : Prop where
  paths : (files.map (·.path)).Nodup
  tables : files.filterMap (·.table) = r.examine.accepted
  rejected : ∀ f ∈ files, ∀ name ∈ r.examine.rejected, f.table ≠ some name
  shared : ∀ f, f ∈ files ∧ f.table = none ↔ f ∈ sharedFiles c r.examine.tables
  modules : ∀ t ∈ r.examine.tables, ∃ variants m,
    resolve r.examine.tables (c.variants t) = .ok variants ∧
    variants.map (·.relationship) = c.variants t ∧
    tableModule c t r.examine.tables = .ok m ∧
    { path := tablePath t.name, content := m.text c.style, table := some t.name } ∈ files ∧
    Linked r files t variants m
  relations : ∀ t ∈ r.examine.tables, ∀ rel ∈ t.relationships, HasFile r files rel.references.table
  imported : ∃ names, importTables r.examine.tables = "from . import " ++ Text.join ", " names ∧
    ∀ name ∈ names, HasFile r files name
  listed : ∀ a, .table a ∈ (registryModule c r.examine.tables).items →
    ∃ opening closing items, a.value = .listing opening closing items ∧
      ∀ i ∈ items, ∃ name, HasFile r files name ∧ Named name i
  /-- Legible texts make files that are accepted as they are. -/
  accepted : r.Legible → Check.text (.text c.runtimePackage) = .fits c.runtimePackage →
    ∀ f ∈ files, SourceFile.read f.given = .fits f

section

variable {r : Registry} {c : Config} {modules : List SourceFile}
  (all : List.Forall₂ (Rendered c r.examine.tables) r.examine.tables modules)

include all

theorem hasFile {name : String} (h : name ∈ r.examine.accepted) :
    HasFile r (modules ++ sharedFiles c r.examine.tables) name := by
  obtain ⟨t, ht, rfl⟩ := Registry.exists_table h
  obtain ⟨f, hf, variants, -, -, rfl⟩ := exists_right_of_paired all ht
  exact ⟨h, _, List.mem_append_left _ hf, rfl, rfl⟩

theorem paths_modules : modules.map (·.path) = r.examine.accepted.map tablePath := by
  rw [← Registry.names_tables, List.map_map]
  refine map_eq_of_paired all ?_
  rintro t f ⟨variants, -, -, rfl⟩
  rfl

theorem paths_nodup : ((modules ++ sharedFiles c r.examine.tables).map (·.path)).Nodup := by
  have hshared : ((sharedFiles c r.examine.tables).map (·.path)).Nodup ∧
      ∀ p ∈ (sharedFiles c r.examine.tables).map (·.path), p = registryPath ∨ p = packagePath := by
    unfold sharedFiles
    split
    · simp [registryPath, packagePath]
    · simp
  rw [List.map_append, paths_modules all, List.nodup_append]
  refine ⟨(Registry.nodup_accepted r).map fun m n h => tablePath_injective h, hshared.1, ?_⟩
  intro p hp q hq hsame
  obtain ⟨name, hname, rfl⟩ := List.mem_map.mp hp
  obtain ⟨t, ht, rfl⟩ := Registry.exists_table hname
  obtain ⟨-, -, -, -, -, hpasses⟩ := Registry.mem_tables ht
  obtain ⟨-, hfree, hplain⟩ := hpasses.names
  -- The registry's name is reserved, and no table's name begins with underscores.
  rcases hshared.2 q hq with rfl | rfl
  · have hregistry : t.name = "registry" := tablePath_injective hsame
    exact hfree (by simp [hregistry, Schema.reservedModules])
  · have hpackage : t.name = "__init__" := tablePath_injective hsame
    rw [hpackage] at hplain
    exact absurd hplain (by decide)

theorem linked {t : Table} {variants : List Resolved}
    (found : List.Forall₂ (Found r.examine.tables) (c.variants t) variants) :
    Linked r (modules ++ sharedFiles c r.examine.tables) t variants (linkedModule c t variants) := by
  have htarget (x : Resolved) (hx : x ∈ variants) :
      HasFile r (modules ++ sharedFiles c r.examine.tables) x.target.name ∧
        x.target.name = x.relationship.references.table := by
    obtain ⟨rel, -, hrel, hmem, hname⟩ := exists_left_of_paired found hx
    exact ⟨hasFile all (Registry.mem_accepted_of_mem hmem), by rw [hrel, hname]⟩
  refine ⟨?_, ?_, ?_⟩
  · rw [siblings_linkedModule, List.forall_mem_map]
    intro name hname
    obtain ⟨-, rel, hrel, rfl⟩ := mem_relatedTables.mp hname
    obtain ⟨x, hx, rfl⟩ := List.mem_map.mp hrel
    obtain ⟨hfile, hsame⟩ := htarget x hx
    exact ⟨hsame ▸ hfile, rfl⟩
  · intro x hx
    obtain ⟨hfile, hsame⟩ := htarget x hx
    refine ⟨hfile, hsame, ?_⟩
    by_cases hown : x.target.name = t.name
    · exact .inl ⟨hown, if_pos (beq_iff_eq.mpr hown)⟩
    · have hreference : t.recordReference x.target =
          s!"{Code.moduleAlias x.target.name}.{x.target.recordName}" :=
        if_neg (mt beq_iff_eq.mp hown)
      refine .inr ⟨⟨x.target.name, Code.moduleAlias x.target.name⟩, ?_, rfl, hreference⟩
      rw [siblings_linkedModule]
      refine List.mem_map.mpr ⟨x.target.name, mem_relatedTables.mpr ⟨hown, ?_⟩, rfl⟩
      exact ⟨x.relationship, List.mem_map_of_mem hx, hsame.symm⟩
  · rw [classes_linkedModule]
    exact fun k hk => mem_classes hk

end

theorem known_targets {r : Registry} {c : Config} {t : Table} (ht : t ∈ r.examine.tables) :
    ∀ rel ∈ c.variants t, rel.references.table ∈ r.examine.tables.map (·.name) := by
  intro rel hrel
  rw [Registry.names_tables]
  exact Registry.target_mem_accepted ht (variants_subset c t hrel)

/-- The module of an accepted table, whose relationships have found their targets. -/
theorem tableModule_ok {r : Registry} {c : Config} {t : Table} (ht : t ∈ r.examine.tables) :
    ∃ xs, tableModule c t r.examine.tables = .ok (linkedModule c t xs) ∧
      List.Forall₂ (Found r.examine.tables) (c.variants t) xs := by
  obtain ⟨xs, hxs, hfound⟩ := resolve_ok (known_targets ht)
  exact ⟨xs, by rw [tableModule, hxs]; rfl, hfound⟩

section

open Schema (Field)

def keyField : Field :=
  { name := "id", type := ⟨.i64, false⟩, primaryKey := true, inputMode := .autoGenerated }

/-- Users and posts lead to each other; drafts lead to a table that is not there. -/
def blog : Registry where
  entries := [
    { table := "users"
      fragments := [{
        table := "users"
        fields := [keyField, { name := "name", type := ⟨.text, false⟩, default := some "'nobody'"
                               inputMode := .optional }]
        relationships := [{ column := "id", references := { table := "posts" }
                            cardinality := .oneToMany }] }] },
    { table := "posts"
      fragments := [{
        table := "posts"
        fields := [keyField, { name := "user_id", type := ⟨.i64, false⟩ }]
        relationships := [{ column := "user_id", references := { table := "users" } }] }] },
    { table := "drafts"
      fragments := [{
        table := "drafts"
        fields := [keyField, { name := "ghost_id", type := ⟨.i64, false⟩ }]
        relationships := [{ column := "ghost_id", references := { table := "ghosts" } }] }] }]
  distinct := by decide

/-- The posts of the blog as a table. -/
def posts : Schema.Table :=
  { name := "posts", fields := [keyField, { name := "user_id", type := ⟨.i64, false⟩ }]
    relationships := [{ column := "user_id", references := { table := "users" } }] }

end

end Generation

end TableLoom
