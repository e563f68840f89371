import TableLoom.Proofs.Code.Imports
import TableLoom.Proofs.Generation.Rendering
import TableLoom.Proofs.Text.Split
import TableLoom.Proofs.Text.Words

/-!
The names of the classes in the module of an accepted table. All begin with the name of the record, and
those of records with relations loaded go on with the association. They are different as far as the
associations are, and only the bare name of the record can be the name of anything else in the module,
unless that name begins with an underscore.
-/

namespace TableLoom

namespace Text

theorem append_injective (s : String) : Function.Injective (s ++ ·) := by
  intro a b h
  have hchars := congrArg String.toList h
  simp only [String.toList_append, List.append_right_inj] at hchars
  exact String.toList_injective hchars

theorem containsChars_append (before part after : List Char) :
    containsChars part (before ++ (part ++ after)) = true := by
  induction before with
  | nil =>
      cases part with
      | nil => cases after <;> simp [containsChars]
      | cons c part => simp [containsChars]
  | cons c before ih => rw [List.cons_append, containsChars, ih, Bool.or_true]

theorem contains_append (before part after : String) :
    contains part (before ++ (part ++ after)) = true := by
  rw [contains, String.toList_append, String.toList_append]
  exact containsChars_append _ _ _

end Text

namespace Schema.Table

/-- What relationships lead to, and all of it together, as names of classes put it. -/
def associations (rels : List Relationship) : List String :=
  rels.map (fun rel => Naming.pascal rel.member) ++ ["AllRelations"]

/-- What follows the name of the record in the names of the classes. -/
def endings (rels : List Relationship) : List String :=
  ["", "Create", "Update"] ++ (if rels.isEmpty then [] else (associations rels).map ("With" ++ ·))
    ++ ["Query"]

variable (t : Table)

theorem variantName_eq (rel : Relationship) :
    t.variantName rel = t.recordName ++ ("With" ++ Naming.pascal rel.member) := by
  have hassociation := Naming.association_eq rel.column rel.references.table rel.isMany
  rw [← Relationship.member] at hassociation
  rw [← String.append_assoc, ← hassociation]
  rfl

theorem allRelationsName_eq : t.allRelationsName = t.recordName ++ ("With" ++ "AllRelations") :=
  rfl

theorem nodup_endings {rels : List Relationship} :
    (endings rels).Nodup ↔ (associations rels).Nodup := by
  have hplain : (["", "Create", "Update", "Query"] : List String).Nodup := by decide
  -- The plain endings are told from the associations by their first letter.
  have hapart : ∀ a, "With" ++ a ∉ ["", "Create", "Update", "Query"] := by
    intro a hmem
    have hhead : ∀ s ∈ ["", "Create", "Update", "Query"], s.toList.head? ≠ some 'W' := by decide
    exact hhead _ hmem (by simp)
  have hperm : (endings rels).Perm (["", "Create", "Update", "Query"] ++
      if rels.isEmpty then [] else (associations rels).map ("With" ++ ·)) := by
    unfold endings
    rw [List.append_assoc]
    exact (List.perm_append_comm).append_left ["", "Create", "Update"]
  rw [hperm.nodup_iff, List.nodup_append']
  cases rels with
  | nil => simp [associations]
  | cons rel rest =>
      have hloaded := List.nodup_map_iff (l := associations (rel :: rest)) (Text.append_injective "With")
      simp only [List.isEmpty_cons, Bool.false_eq_true, ↓reduceIte, hloaded]
      refine ⟨fun h => h.2.1, fun h => ⟨hplain, h, fun name hname hmem => ?_⟩⟩
      obtain ⟨a, -, rfl⟩ := List.mem_map.mp hmem
      exact hapart a hname

end Schema.Table

namespace Generation

open Code (Module)
open Schema (Table Relationship)

theorem names_classes (t : Table) (xs : List Resolved) :
    (TableModule.classes t xs).map (·.name) =
      (Table.endings (xs.map (·.relationship))).map (t.recordName ++ ·) := by
  have hloaded : (xs.map (fun x => TableModule.variantClass t (t.variantName x.relationship) [x])
      ++ [TableModule.variantClass t t.allRelationsName xs]).map (·.name) =
      ((Table.associations (xs.map (·.relationship))).map ("With" ++ ·)).map (t.recordName ++ ·) := by
    simp [Table.associations, TableModule.variantClass, Table.variantName_eq, Table.allRelationsName_eq]
  have hfirst : [TableModule.recordClass t, TableModule.createClass t, TableModule.updateClass t].map
      (·.name) = ["", "Create", "Update"].map (t.recordName ++ ·) := by
    simp [TableModule.recordClass, TableModule.createClass, TableModule.updateClass,
      TableModule.inputClass]
  unfold TableModule.classes Table.endings
  rw [List.map_append, List.map_append, List.map_append, List.map_append, hfirst, List.isEmpty_map]
  refine congrArg₂ _ (congrArg _ ?_) rfl
  split
  · rfl
  · exact hloaded

/-- The groups of imports as the lines of a module give them. -/
def importGroups (c : Config) (imports : Code.Imports) : List Code.Imports :=
  let runtime := (c.runtimePackage ++ ".").toList
  [imports.filter fun m => isBaseModule m.1, imports.filter (·.1 == "pydantic"),
    imports.filter fun m => m.1 != "pydantic" && runtime.isPrefixOf m.1.toList]

theorem importBlocks_eq (c : Config) (imports : Code.Imports) :
    importBlocks c imports = (importGroups c imports).map Code.Imports.block :=
  rfl

/-- The name that opens every module of the package. -/
def futureName : String := "annotations"

/-- What a line of imports binds. -/
def boundBy (e : String × List String) : List String :=
  if e.2.isEmpty then [e.1] else e.2

/-- The names of constants and functions. -/
def otherNames : List Code.Item → List String :=
  List.flatMap fun
    | .record _ => []
    | i => i.names

/-- What the module of a table binds beside its classes: what it imports, its constants and functions,
and the modules of other tables. -/
def namesBeside (c : Config) (t : Table) (m : Module) : List String :=
  futureName :: (importGroups c (tableImports c t)).flatMap (List.flatMap boundBy)
    ++ otherNames m.items ++ m.siblings.map (·.alias_)

/-- Imported names that a record may be called. -/
def openImports : List String :=
  ["annotations", "require_row", "base_values", "build_insert_many", "build_update", "decode_one",
    "decode_many", "datetime"]

def constantNames : List String :=
  ["TABLE_NAME", "SELECT_ALL_SQL", "COLUMNS", "INPUT_COLUMNS", "INSERT_DEFAULTS", "INSERT_SQL",
    "FIND_BY_ID_SQL", "FIND_BY_ID_WITH_DELETED_SQL", "SOFT_DELETE_SQL", "DELETE_SQL", "UPSERT_SQL",
    "TRUNCATE_SQL", "TABLE_EXISTS_SQL"]

def functionNames : List String :=
  ["query", "insert", "insert_many", "find_by_id", "find_all", "update", "delete", "soft_delete",
    "upsert", "count", "truncate", "table_exists"]

/-- Every name of a module that a record may be called. -/
def openNames : List String :=
  openImports ++ constantNames ++ functionNames

/-- Every name that the module of a table may import from outside the package. -/
def importable : List String := openImports ++ Schema.reservedRecords

/-- Names are asked for, and only importable ones. -/
def AsksImportable (_ : String) (names : List String) : Prop :=
  names ≠ [] ∧ names ⊆ importable

theorem extends_importable : Code.Imports.Extends AsksImportable := by
  rintro module names more ⟨hne, hmore⟩ hthere
  obtain ⟨n, hn⟩ := List.exists_mem_of_ne_nil _ hne
  refine ⟨List.ne_nil_of_mem (Code.Imports.mem_addNames.mpr (.inr hn)), fun n hn => ?_⟩
  rcases Code.Imports.mem_addNames.mp hn with hn | hn
  · rcases hthere with rfl | hthere
    · cases hn
    · exact hthere.2 hn
  · exact hmore hn

theorem importable_imports (t : Table) : t.imports.Each AsksImportable := by
  have hadd (acc : Code.Imports) (hacc : acc.Each AsksImportable) (module name : String)
      (hname : name ∈ importable) : (acc.add module name).Each AsksImportable :=
    Code.Imports.each_addAll extends_importable hacc ⟨List.cons_ne_nil _ _, by simpa using hname⟩
  refine List.foldlRecOn (motive := Code.Imports.Each _) _ _ (fun _ he => absurd he (by simp)) ?_
  intro acc hacc f _
  have hnullable : ∀ acc : Code.Imports, acc.Each AsksImportable →
      (if f.nullable && f.type.base != .json then acc.add "typing" "Optional" else acc).Each
        AsksImportable := by
    intro acc hacc
    split
    · exact hadd acc hacc "typing" "Optional" (by decide)
    · exact hacc
  refine hnullable _ ?_
  split
  · next m n himported =>
      have hname : n ∈ importable := by
        cases hbase : f.type.base <;> rw [hbase] at himported <;> cases himported <;> decide
      exact hadd acc hacc m n hname
  · exact hacc

theorem importable_tableImports (c : Config) (t : Table) : (tableImports c t).Each AsksImportable := by
  have hwhenever {b : Bool} {names : List String} (h : names ⊆ importable) :
      (if b then names else []) ⊆ importable := by
    split
    · exact h
    · exact List.nil_subset _
  have hdecoders : (c.variants t).map TableModule.decoder ⊆ importable := by
    intro n hn
    obtain ⟨rel, -, rfl⟩ := List.mem_map.mp hn
    unfold TableModule.decoder
    split <;> decide
  have hinsert : ["build_insert_many"] ++ (if t.keyField?.isSome then ["build_update"] else []) ⊆
      importable :=
    List.append_subset.mpr ⟨by decide, hwhenever (by decide)⟩
  refine Code.Imports.each_mergeAll extends_importable
    (List.forall_mem_cons.mpr ⟨?_, List.forall_mem_singleton.mpr (importable_imports t)⟩)
  simp only [Code.Imports.Each, AsksImportable, List.forall_mem_cons, List.append_subset]
  refine ⟨⟨by simp, by decide, hwhenever (by decide)⟩, ⟨by simp, by decide, hwhenever (by decide)⟩,
    ⟨by simp, by decide, hwhenever hinsert⟩, ⟨by simp, by decide, hdecoders⟩, ⟨by simp, by decide⟩,
    by simp⟩

theorem bound_subset (c : Config) (t : Table) :
    (importGroups c (tableImports c t)).flatMap (List.flatMap boundBy) ⊆ importable := by
  intro n hn
  obtain ⟨group, hgroup, hn⟩ := List.mem_flatMap.mp hn
  obtain ⟨e, he, hn⟩ := List.mem_flatMap.mp hn
  have hsub : group ⊆ tableImports c t := by
    simp only [importGroups, List.mem_cons, List.not_mem_nil, or_false] at hgroup
    rcases hgroup with rfl | rfl | rfl <;> exact List.filter_subset_self _
  obtain ⟨hne, hnames⟩ := importable_tableImports c t e (hsub he)
  rw [boundBy, if_neg (by simpa using hne)] at hn
  exact hnames hn

theorem names_constants (t : Table) :
    ((TableModule.constants t).map (·.name)).Sublist constantNames := by
  have hkey : ((t.keyField?.toList.flatMap fun f => TableModule.keyConstants t f.name).map
      (·.name)).Sublist ["FIND_BY_ID_SQL", "FIND_BY_ID_WITH_DELETED_SQL", "SOFT_DELETE_SQL",
        "DELETE_SQL"] := by
    cases t.keyField? with
    | none => exact List.nil_sublist _
    | some key =>
        simp only [Option.toList_some, List.flatMap_singleton, TableModule.keyConstants]
        split
        · exact List.Sublist.refl _
        · exact .cons_cons _ (.cons _ (.cons _ (.refl _)))
  have hupsert : ((t.upsertSql?.toList.map (TableModule.sql "UPSERT_SQL")).map (·.name)).Sublist
      ["UPSERT_SQL"] := by
    cases t.upsertSql? with
    | none => exact List.nil_sublist _
    | some s => exact List.Sublist.refl _
  simp only [TableModule.constants, List.map_append]
  exact (((List.Sublist.refl _).append hkey).append hupsert).append (List.Sublist.refl _)

theorem names_functions (t : Table) : (TableModule.functions t).map (·.name) ⊆ functionNames := by
  intro n hn
  obtain ⟨f, hf, rfl⟩ := List.mem_map.mp hn
  rcases mem_functions hf with
    hf | ⟨key, -, rfl | rfl | ⟨name, hname, statement, doc, rfl⟩⟩ | ⟨conflict, rfl⟩
  · have hnames := List.mem_map_of_mem (f := (·.name)) hf
    simp only [List.map_cons, TableModule.findAll, TableModule.count, name_running] at hnames
    exact (by decide : ["query", "insert", "insert_many", "find_all", "count", "truncate",
      "table_exists"] ⊆ functionNames) hnames
  · rw [name_findById]
    decide
  · exact (by decide : "update" ∈ functionNames)
  · exact (by decide : ["delete", "soft_delete"] ⊆ functionNames) hname
  · exact (by decide : "upsert" ∈ functionNames)

theorem otherNames_linkedModule (c : Config) (t : Table) (xs : List Resolved) :
    otherNames (linkedModule c t xs).items =
      (TableModule.constants t).map (·.name) ++ (TableModule.functions t).map (·.name) := by
  have hrecords (ks : List Code.RecordClass) : otherNames (ks.map .record) = [] := by
    simp [otherNames]
  have hfunctions (fs : List Code.Function) : otherNames (fs.map .function) = fs.map (·.name) := by
    simp only [otherNames, List.flatMap_map, Code.Item.names]
    exact List.map_eq_flatMap.symm
  rw [items_linkedModule, ← hfunctions]
  unfold otherNames at hrecords ⊢
  rw [List.flatMap_cons, List.flatMap_append, hrecords]
  rfl

section

variable {c : Config} {r : Schema.Registry} {t : Table}

theorem mem_namesBeside {xs : List Resolved} {n : String}
    (hn : n ∈ namesBeside c t (linkedModule c t xs)) :
    n ∈ openNames ∨ n ∈ Schema.reservedRecords ∨ n ∈ (linkedModule c t xs).siblings.map (·.alias_) := by
  simp only [namesBeside, List.cons_append, List.mem_cons, List.mem_append,
    otherNames_linkedModule] at hn
  rcases hn with rfl | ((hn | hn | hn) | hn)
  · exact .inl (by decide)
  · rcases List.mem_append.mp (bound_subset c t hn) with hn | hn
    · exact .inl (List.mem_append_left _ (List.mem_append_left _ hn))
    · exact .inr (.inl hn)
  · exact .inl (List.mem_append_left _ (List.mem_append_right _ ((names_constants t).subset hn)))
  · exact .inl (List.mem_append_right _ (names_functions t hn))
  · exact .inr (.inr hn)

/-- The name of a class with an ending is the name of nothing else that modules import or define. -/
theorem notMem_openNames {rels : List Relationship} {s e : String} (he : e ∈ Table.endings rels)
    (hne : e ≠ "") : s ++ e ∉ openNames ++ Schema.reservedRecords := by
  -- `QueryBuilder` contains an ending, so only the end of a name counts for the plain ones.
  have hends : ∀ part ∈ ["Create", "Update", "Query"],
      ∀ n ∈ openNames ++ Schema.reservedRecords, Text.endsWith n part = false := by
    decide +kernel
  have hwith : ∀ n ∈ openNames ++ Schema.reservedRecords, Text.contains "With" n = false := by
    decide +kernel
  have hplain (part : String) (hpart : part ∈ ["Create", "Update", "Query"]) :
      s ++ part ∉ openNames ++ Schema.reservedRecords := by
    intro hmem
    have hsuffix := hends part hpart _ hmem
    rw [Text.endsWith_append] at hsuffix
    cases hsuffix
  simp only [Table.endings, List.mem_append, List.mem_cons, List.not_mem_nil, or_false] at he
  rcases he with ((rfl | rfl | rfl) | he) | rfl
  · exact absurd rfl hne
  · exact hplain _ (by simp)
  · exact hplain _ (by simp)
  · split at he
    · cases he
    · obtain ⟨a, -, rfl⟩ := List.mem_map.mp he
      intro hmem
      have hinfix := hwith _ hmem
      rw [Text.contains_append] at hinfix
      cases hinfix
  · exact hplain _ (by simp)

/-- The record's name is all that can clash, unless the alias of a module reads like a class. -/
theorem clash_of_mem {xs : List Resolved} (ht : t ∈ r.examine.tables) {n : String}
    (hclass : n ∈ (linkedModule c t xs).classes.map (·.name))
    (hbeside : n ∈ namesBeside c t (linkedModule c t xs)) :
    n = t.recordName ∧ n ∈ openNames ∨
      Schema.startsWith "_" t.recordName = true ∧
        n ∈ (linkedModule c t xs).siblings.map (·.alias_) := by
  obtain ⟨_, _, _, _, -, hpasses⟩ := Schema.Registry.mem_tables ht
  obtain ⟨hname, hfree⟩ := hpasses.record
  rw [classes_linkedModule, names_classes] at hclass
  obtain ⟨e, he, rfl⟩ := List.mem_map.mp hclass
  rcases mem_namesBeside hbeside with hopen | hreserved | halias
  · by_cases hempty : e = ""
    · subst hempty
      exact .inl ⟨String.append_empty, hopen⟩
    · exact absurd (List.mem_append_left _ hopen) (notMem_openNames he hempty)
  · by_cases hempty : e = ""
    · subst hempty
      rw [String.append_empty] at hreserved
      exact absurd hreserved hfree
    · exact absurd (List.mem_append_right _ hreserved) (notMem_openNames he hempty)
  · refine .inr ⟨?_, halias⟩
    obtain ⟨sibling, hsibling, heq⟩ := List.mem_map.mp halias
    rw [siblings_linkedModule] at hsibling
    obtain ⟨name, -, rfl⟩ := List.mem_map.mp hsibling
    have hchars := congrArg String.toList heq
    rw [Code.moduleAlias, String.toList_append, String.toList_append] at hchars
    unfold Schema.startsWith
    cases hrecord : t.recordName.toList with
    | nil =>
        rw [String.toList_eq_nil_iff.mp hrecord] at hname
        exact absurd hname (by decide)
    | cons first rest =>
        rw [hrecord] at hchars
        obtain rfl : '_' = first := (List.cons.inj hchars).1
        simp

/-- A record named after its table has a name in words run together, the first in upper case. -/
theorem recordName_of_unchosen (ht : t ∈ r.examine.tables) (unchosen : t.structName.getD "" = "") :
    '_' ∉ t.recordName.toList ∧ ∃ first more, t.recordName.toList = first :: more ∧ first.isUpper := by
  obtain ⟨_, _, _, _, -, hpasses⟩ := Schema.Registry.mem_tables ht
  obtain ⟨hname, -, hstart⟩ := hpasses.names
  have hidentifier := (Bool.and_eq_true_iff.mp hname).1
  have hrecord : t.recordName = Naming.pascalSingular t.name := by
    unfold Table.recordName
    cases hchosen : t.structName with
    | none => rfl
    | some s =>
        rw [hchosen, Option.getD_some] at unchosen
        rw [unchosen]
        rfl
  obtain ⟨first, rest, hchars, hfirst⟩ := Text.isNameStart_of_isIdentifier hidentifier
  have halpha : first.isAlpha = true := by
    rcases Bool.or_eq_true_iff.mp hfirst with halpha | hunderscore
    · exact halpha
    · rw [Schema.startsWith, hchars, beq_iff_eq.mp hunderscore] at hstart
      simp at hstart
  obtain ⟨more, hmore⟩ := Naming.pascalSingular_cons hchars halpha
  rw [hrecord]
  exact ⟨Naming.underscore_notMem_pascal (Naming.ascii_singular (Text.ascii_of_isIdentifier hidentifier)),
    _, more, hmore, by rw [Char.isUpper_toUpper_eq_isAlpha, halpha]⟩

/-- Customary members are told apart by their associations. -/
theorem nodup_associations (ht : t ∈ r.examine.tables)
    (customary : ∀ rel ∈ c.variants t, Naming.Customary rel.member) :
    (Table.associations (c.variants t)).Nodup ↔ ∀ rel ∈ c.variants t, rel.member ≠ "all_relations" := by
  let names := (c.variants t).map (·.member) ++ ["all_relations"]
  have hcustomary : ∀ name ∈ names, Naming.Customary name := by
    rw [List.forall_mem_append, List.forall_mem_map, List.forall_mem_singleton]
    exact ⟨customary, by decide⟩
  have hassociations : Table.associations (c.variants t) = names.map Naming.pascal := by
    rw [Table.associations, List.map_append, List.map_map]
    exact congrArg _ (by decide +kernel)
  have hmembers : ((c.variants t).map (·.member)).Nodup :=
    (List.nodup_append'.mp (Schema.Registry.nodup_members ht)).2.1.sublist
      ((variants_sublist c t).map _)
  have hsame : (names.map Naming.pascal).Nodup ↔ names.Nodup :=
    ⟨.of_map _, .map_on fun x hx y hy => Naming.pascal_injective (hcustomary x hx) (hcustomary y hy)⟩
  rw [hassociations, hsame, List.nodup_append']
  simp [hmembers, eq_comm]

/-- How the classes of a module are named, among each other and beside what else the module binds. -/
structure ClassNames (c : Config) (t : Table) (m : Module) : Prop where
  imports : m.imports = (importGroups c (tableImports c t)).map Code.Imports.block
  distinct : (m.classes.map (·.name)).Nodup ↔ (Table.associations (c.variants t)).Nodup
  customary : (∀ rel ∈ c.variants t, Naming.Customary rel.member) →
    ((m.classes.map (·.name)).Nodup ↔ ∀ rel ∈ c.variants t, rel.member ≠ "all_relations")
  beside : ∀ n ∈ m.classes.map (·.name), n ∈ namesBeside c t m →
    n = t.recordName ∧ n ∈ openNames ∨
      Schema.startsWith "_" t.recordName = true ∧ n ∈ m.siblings.map (·.alias_)
  unchosen : t.structName.getD "" = "" →
    ∀ n ∈ m.classes.map (·.name), n ∈ namesBeside c t m → n = "COLUMNS"

/-- The classes of an accepted table's module have different names exactly if the associations are
different, for which it is enough with customary members that none is called `all_relations`. A class
has the name of something else in the module only if that is the bare name of the record, or if the
record's name begins with an underscore; named after its table it can only be called `COLUMNS`. -/
theorem class_names_apart (c : Config) (ht : t ∈ r.examine.tables) :
    ∃ m, tableModule c t r.examine.tables = .ok m ∧ ClassNames c t m := by
  obtain ⟨xs, hmodule, hfound⟩ := tableModule_ok (c := c) ht
  have hdistinct : ((linkedModule c t xs).classes.map (·.name)).Nodup ↔
      (Table.associations (c.variants t)).Nodup := by
    rw [classes_linkedModule, names_classes, relationships_of_found hfound,
      List.nodup_map_iff (Text.append_injective _), Table.nodup_endings]
  refine ⟨_, hmodule, ⟨importBlocks_eq c _, hdistinct, fun customary => hdistinct.trans (nodup_associations ht customary),
    fun n hclass hbeside => clash_of_mem ht hclass hbeside, fun unchosen n hclass hbeside => ?_⟩⟩
  obtain ⟨hplain, first, more, hchars, hupper⟩ := recordName_of_unchosen ht unchosen
  rcases clash_of_mem ht hclass hbeside with ⟨rfl, hopen⟩ | ⟨hstart, -⟩
  · have honly : ∀ n ∈ openNames, '_' ∉ n.toList → n.toList.head?.any (·.isUpper) = true →
        n = "COLUMNS" := by
      decide +kernel
    exact honly _ hopen hplain (by rw [hchars]; exact hupper)
  · have hfirst : '_' = first := by
      rw [Schema.startsWith, hchars] at hstart
      simpa using hstart
    rw [hchars, ← hfirst] at hplain
    exact absurd List.mem_cons_self hplain

end

section

open Schema (Registry)

theorem class_names_apart_posts :
    ∃ m, tableModule {} posts blog.examine.tables = .ok m ∧ (m.classes.map (·.name)).Nodup ∧
      ∀ n ∈ m.classes.map (·.name), n ∈ namesBeside {} posts m → n = "COLUMNS" := by
  obtain ⟨m, hmodule, hnames⟩ := class_names_apart {} (r := blog) (t := posts) (by decide +kernel)
  exact ⟨m, hmodule, hnames.distinct.mpr (by decide +kernel), hnames.unchosen rfl⟩

/-- Posts with two keys that differ by a capital, in records called like a function that they need. -/
def postsTwice : Table :=
  { name := "posts", structName := some "base_values"
    fields := [keyField, { name := "user_id", type := ⟨.i64, false⟩ },
      { name := "User_id", type := ⟨.i64, false⟩ }]
    relationships := [{ column := "user_id", references := { table := "users" } },
      { column := "User_id", references := { table := "users" } }] }

def twice : Registry where
  entries := [
    { table := "users", fragments := [{ table := "users", fields := [keyField] }] },
    { table := "posts"
      fragments := [{ table := "posts", structName := postsTwice.structName, fields := postsTwice.fields
                      relationships := postsTwice.relationships }] }]
  distinct := by decide

/-- An accepted table whose classes take each other's place, and that of an imported function. -/
theorem class_names_clash :
    twice.examine.accepted = ["users", "posts"] ∧ postsTwice ∈ twice.examine.tables ∧
      ∃ m, tableModule {} postsTwice twice.examine.tables = .ok m ∧
        ¬ (m.classes.map (·.name)).Nodup ∧ "base_values" ∈ m.classes.map (·.name) ∧
        "base_values" ∈ namesBeside {} postsTwice m := by
  have haccepted : postsTwice ∈ twice.examine.tables := by decide +kernel
  obtain ⟨xs, hmodule, hfound⟩ := tableModule_ok (c := {}) haccepted
  have hnames : (linkedModule {} postsTwice xs).classes.map (·.name) =
      (Table.endings postsTwice.relationships).map ("base_values" ++ ·) := by
    rw [classes_linkedModule, names_classes, relationships_of_found hfound]
    rfl
  refine ⟨by decide +kernel, haccepted, _, hmodule, ?_, ?_, ?_⟩
  · rw [hnames]
    decide +kernel
  · rw [hnames]
    decide +kernel
  · refine List.mem_append_left _ (List.mem_append_left _ (List.mem_cons_of_mem _ ?_))
    decide +kernel

end

end Generation

end TableLoom
