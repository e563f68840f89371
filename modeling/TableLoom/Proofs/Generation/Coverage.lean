import TableLoom.Proofs.Generation.RecordCoverage

/-!
The module of an accepted table reads no name that is not there: what its lines read is bound around them,
imported, defined in the module, the alias of another module or built in.
-/

namespace TableLoom.Generation

open Code (Binding Function Module Signature Stands Template Unquoted reads readsFrom words words_of_isName)
open Schema (Field Registry Relationship Table)
open Text (IsName isIdentifier)

section

variable {c : Config} {r : Registry} {t : Table} {xs : List Resolved}

/-! ### The functions -/

/-- The constants with the statements for one row are there when the table has a key. -/
theorem supplied_keyConstant {key : Field} (hkey : t.keyField? = some key) {n : String}
    (h : n ∈ (TableModule.keyConstants t key.name).map (·.name)) : There c t xs n := by
  obtain ⟨a, ha, rfl⟩ := List.mem_map.mp h
  refine supplied_constant ?_
  simp only [TableModule.constants, hkey, List.mem_append, List.mem_flatMap, Option.mem_toList]
  exact .inl (.inl (.inr ⟨key, rfl, ha⟩))

theorem fits_running {name method result : String} (hname : IsName name) (hmethod : IsName method)
    (hresult : Stands (There c t xs) result) :
    (TableModule.running t name method result).Fits (There c t xs) := by
  have hmethod := Code.oneWord_of_isName hmethod
  unfold TableModule.running
  split
  · constructor
    case name => exact hname
    case receiver => simp
    case bindings => simp [fits_database, fits_withDeleted]
    case result => exact hresult
    case doc => simp
    case body =>
      refine reads_body [LineForm.queryChosen] ["include_deleted", "db"] [] (by simp [LineForm.all]) (by simp)
        (by simp [Signature.names, TableModule.database, TableModule.withDeleted]) (by decide)
        (.cons ⟨[method], ?_, .cons hmethod .nil⟩ .nil) (by decide)
      simp [LineForm.queryChosen, TableModule.line, toString, String.append_assoc]
  · constructor
    case name => exact hname
    case receiver => simp
    case bindings => simp [fits_database]
    case result => exact hresult
    case doc => simp
    case body =>
      refine reads_body [LineForm.queryRun] ["db"] [] (by simp [LineForm.all]) (by simp)
        (by simp [Signature.names, TableModule.database]) (by decide)
        (.cons ⟨[method], ?_, .cons hmethod .nil⟩ .nil) (by decide)
      simp [LineForm.queryRun, TableModule.line, toString, String.append_assoc]

theorem fits_truncate : TableModule.truncate.Fits (There c t xs) where
  name := (by decide : IsName "truncate")
  receiver := by simp [TableModule.truncate]
  bindings := by simp [TableModule.truncate, fits_database]
  result := stands_none
  doc := by simp [TableModule.truncate]
  body := reads_body [LineForm.truncated] ["db"] [] (by simp [LineForm.all]) (by simp)
    (by simp [Signature.names, TableModule.truncate, TableModule.database]) (by decide)
    (.cons (Template.fills_text _) .nil) (by decide)

theorem fits_tableExists : TableModule.tableExists.Fits (There c t xs) where
  name := (by decide : IsName "table_exists")
  receiver := by simp [TableModule.tableExists]
  bindings := by simp [TableModule.tableExists, fits_database]
  result := stands_common (by simp [commonTexts, TableModule.tableExists])
  doc := by simp [TableModule.tableExists]
  body := reads_body [LineForm.tableFound, LineForm.foundReturned] ["db"] [] (by simp [LineForm.all]) (by simp)
    (by simp [Signature.names, TableModule.tableExists, TableModule.database]) (by decide)
    (.cons (Template.fills_text _) (.cons (Template.fills_text _) .nil)) (by decide)

section

variable (ht : t ∈ r.examine.tables)

include ht

theorem fits_query (hquery : Stands (There c t xs) (t.recordName ++ "Query")) :
    (TableModule.query t).Fits (There c t xs) where
  name := (by decide : IsName "query")
  receiver := by simp [TableModule.query]
  bindings := by simp [TableModule.query]
  result := hquery
  doc := by
    simp only [TableModule.query, Option.mem_def, Option.some.injEq, forall_eq']
    exact unquoted_around (by decide) (isIdentifier_table ht) (by decide)
  body := by
    refine reads_body [LineForm.called] [] [] (by simp [LineForm.all]) (by simp) (by simp) (by simp)
      (.cons ⟨[t.recordName ++ "Query"], ?_, .cons (hquery.mono fun _ => .inr) .nil⟩ .nil) (by decide)
    simp [LineForm.called, TableModule.line, toString, String.append_assoc]

theorem fits_writing {name statement doc : String} (hname : IsName name)
    (hstatement : Stands (There c t xs) statement) (hdoc : Unquoted doc) :
    (TableModule.writing t name statement doc).Fits (There c t xs) where
  name := hname
  receiver := by simp [TableModule.writing]
  bindings := by
    simp only [TableModule.writing, List.forall_mem_append, List.forall_mem_singleton, List.forall_mem_map]
    exact ⟨⟨fits_database, fun f hf => fits_inputMember ht hf⟩, by simp⟩
  result := stands_record ht
  doc := by simpa [TableModule.writing] using hdoc
  body := by
    have hinputs : Stands (fun n => n ∈ (TableModule.writing t name statement doc).locals ∨ There c t xs n)
        ("[" ++ (Text.join ", " (t.inputFields.map (·.name)) ++ "]")) := by
      refine Code.stands_brackets (b := ("[", "]")) (by simp) (List.forall_mem_map.mpr fun f hf => ?_)
      refine stands_parameter (isIdentifier_field ht (List.mem_of_mem_filter hf)) ?_
      rw [names_writing]
      exact List.mem_cons_of_mem _ (List.mem_map_of_mem hf)
    have hstatement := hstatement.mono fun n =>
      Or.inr (a := n ∈ (TableModule.writing t name statement doc).locals)
    refine reads_body [LineForm.paramsListed, LineForm.rowRequired, LineForm.rowReturned] ["db"] []
      (by simp [LineForm.all]) (by simp) (by simp [names_writing]) (by decide)
      (.cons ⟨[_], ?_, .cons hinputs .nil⟩
        (.cons ⟨[statement, statement], ?_, .cons hstatement (.cons hstatement .nil)⟩
          (.cons ⟨[t.recordName], ?_, .cons ((stands_record ht).mono fun _ => .inr) .nil⟩ .nil))) (by decide)
    · exact String.toList_injective (by simp [LineForm.paramsListed, TableModule.line, toString])
    · simp [LineForm.rowRequired, TableModule.line, toString, String.append_assoc]
    · simp [LineForm.rowReturned, TableModule.line, toString, String.append_assoc]

theorem fits_insertMany (hcreate : Stands (There c t xs) (t.recordName ++ "Create"))
    (hne : t.inputFields ≠ []) : (TableModule.insertMany t).Fits (There c t xs) where
  name := (by decide : IsName "insert_many")
  receiver := by simp [TableModule.insertMany]
  bindings := by
    have hrows : Stands (There c t xs) "Sequence[Any]" := by
      have hnames : ∀ n ∈ readsFrom ":" (words "Sequence[Any]"), n ∈ "Sequence" :: commonNames := by decide
      refine Code.stands_text (by decide) fun n hn => ?_
      exact (List.mem_cons.mp (hnames n hn)).elim (fun heq => heq ▸ (Asked.sequence hne).supplied)
        (supplied_common n)
    simp [TableModule.insertMany, fits_database, fits_parameter (show IsName "rows" by decide) hrows]
  result := stands_list (stands_record ht)
  doc := by
    simp only [TableModule.insertMany, Option.mem_def, Option.some.injEq, forall_eq']
    exact unquoted_around (by decide) (isIdentifier_record ht) (by decide)
  body := by
    refine reads_body [LineForm.rowsValidated, LineForm.insertionBuilt, LineForm.rowsReturned] ["db", "rows"]
      ["build_insert_many"] (by simp [LineForm.all])
      (by simpa using (Asked.insertMany hne).supplied)
      (by simp [Signature.names, TableModule.insertMany, TableModule.database]) (by decide)
      (.cons ⟨[t.recordName ++ "Create"], ?_, .cons (hcreate.mono fun _ => .inr) .nil⟩
        (.cons (Template.fills_text _)
          (.cons ⟨[t.recordName], ?_, .cons ((stands_record ht).mono fun _ => .inr) .nil⟩ .nil))) (by decide)
    · exact String.toList_injective (by simp [LineForm.rowsValidated, TableModule.line, toString])
    · simp [LineForm.rowsReturned, TableModule.line, toString, String.append_assoc]

section

variable {key : Field} (hkey : t.keyField? = some key)

include hkey

theorem fits_keyBinding : (TableModule.keyBinding key).Fits (There c t xs) :=
  have hfield := Table.mem_of_keyField? hkey
  ⟨Code.oneWord_of_isIdentifier (isIdentifier_field ht hfield), stands_baseType hfield, by simp [TableModule.keyBinding]⟩

theorem stands_key {f : Function} (h : key.name ∈ f.signature.names) :
    Stands (fun n => n ∈ f.locals ∨ There c t xs n) key.name :=
  stands_parameter (isIdentifier_field ht (Table.mem_of_keyField? hkey)) h

omit hkey in
theorem fills_returnMaybe {f : Function} : LineForm.rowMaybeReturned.template.Fills
    (fun n => n ∈ f.locals ∨ There c t xs n) (TableModule.returnMaybe t).text := by
  refine ⟨[t.recordName], ?_, .cons ((stands_record ht).mono fun _ => .inr) .nil⟩
  simp [LineForm.rowMaybeReturned, TableModule.returnMaybe, TableModule.line, toString, String.append_assoc]

theorem fits_findById : (TableModule.findById t key).Fits (There c t xs) := by
  have hbinding : (TableModule.keyBinding key).Fits (There c t xs) := fits_keyBinding ht hkey
  unfold TableModule.findById
  split
  · next hsoft =>
      constructor
      case name => exact (by decide : IsName "find_by_id")
      case receiver => simp
      case bindings => simp [fits_database, hbinding, fits_withDeleted]
      case result => exact stands_optional (stands_record ht)
      case doc => simp; decide
      case body =>
        refine reads_body [LineForm.statementChosen, LineForm.rowSelected, LineForm.rowMaybeReturned]
          ["db", "include_deleted"] ["FIND_BY_ID_WITH_DELETED_SQL", "FIND_BY_ID_SQL"] (by simp [LineForm.all]) ?_
          (by simp [Signature.names, TableModule.database, TableModule.withDeleted]) (by decide)
          (.cons (Template.fills_text _) (.cons ⟨[key.name], ?_, .cons (stands_key ht hkey ?_) .nil⟩
            (.cons (fills_returnMaybe ht) .nil))) (by decide)
        · intro n hn
          refine supplied_keyConstant hkey ?_
          revert n
          simp [TableModule.keyConstants, TableModule.sql, TableModule.constant, hsoft]
        · simp [LineForm.rowSelected, TableModule.line, toString, String.append_assoc]
        · simp [Signature.names, TableModule.keyBinding]
  · next hsoft =>
      constructor
      case name => exact (by decide : IsName "find_by_id")
      case receiver => simp
      case bindings => simp [fits_database, hbinding]
      case result => exact stands_optional (stands_record ht)
      case doc => simp; decide
      case body =>
        refine reads_body [LineForm.rowFound, LineForm.rowMaybeReturned] ["db"] ["FIND_BY_ID_SQL"]
          (by simp [LineForm.all]) ?_ (by simp [Signature.names, TableModule.database]) (by decide)
          (.cons ⟨[key.name], ?_, .cons (stands_key ht hkey ?_) .nil⟩ (.cons (fills_returnMaybe ht) .nil))
          (by decide)
        · refine List.forall_mem_singleton.mpr (supplied_keyConstant hkey ?_)
          simp [TableModule.keyConstants, TableModule.sql, TableModule.constant, hsoft]
        · simp [LineForm.rowFound, TableModule.line, toString, String.append_assoc]
        · simp [Signature.names, TableModule.keyBinding]

theorem fits_update (hchanges : Stands (There c t xs) (t.recordName ++ "Update"))
    (hne : t.inputFields ≠ []) : (TableModule.update t key).Fits (There c t xs) where
  name := (by decide : IsName "update")
  receiver := by simp [TableModule.update]
  bindings := by
    have hany : (⟨"changes", "Any", none⟩ : Binding).Fits (There c t xs) :=
      fits_parameter (by decide) (stands_common (by simp [commonTexts]))
    simp [TableModule.update, fits_database, fits_keyBinding ht hkey, hany]
  result := stands_optional (stands_record ht)
  doc := by
    simp only [TableModule.update, Option.mem_def, Option.some.injEq, forall_eq']
    decide
  body := by
    refine reads_body [LineForm.changesValidated, LineForm.updateBuilt, LineForm.rowChanged,
      LineForm.rowMaybeReturned] ["db", "changes"] ["build_update"] (by simp [LineForm.all])
      (List.forall_mem_singleton.mpr (Asked.update hne (by rw [hkey]; rfl)).supplied)
      (by simp [Signature.names, TableModule.update, TableModule.database]) (by decide)
      (.cons ⟨[t.recordName ++ "Update"], ?_, .cons (hchanges.mono fun _ => .inr) .nil⟩
        (.cons ⟨[key.name, key.name], ?_, .cons trivial (.cons (stands_key ht hkey ?_) .nil)⟩
          (.cons (Template.fills_text _) (.cons (fills_returnMaybe ht) .nil)))) (by decide)
    · exact String.toList_injective (by simp [LineForm.changesValidated, TableModule.line, toString])
    · simp [LineForm.updateBuilt, TableModule.line, toString, String.append_assoc]
    · simp [Signature.names, TableModule.update, TableModule.keyBinding]

theorem fits_onKey {name statement : String} {doc : Option String} (hname : IsName name)
    (hstatement : IsName statement) (hconstant : statement ∈ (TableModule.keyConstants t key.name).map (·.name))
    (hdoc : ∀ d ∈ doc, Unquoted d) : (TableModule.onKey key name statement doc).Fits (There c t xs) where
  name := hname
  receiver := by simp [TableModule.onKey]
  bindings := by simp [TableModule.onKey, fits_database, fits_keyBinding ht hkey]
  result := stands_common (by simp [commonTexts, TableModule.onKey])
  doc := hdoc
  body := by
    have hthere : Stands (There c t xs) statement :=
      stands_there hstatement (supplied_keyConstant hkey hconstant)
    refine reads_body [LineForm.executed] ["db"] [] (by simp [LineForm.all]) (by simp)
      (by simp [Signature.names, TableModule.onKey, TableModule.database]) (by decide)
      (.cons ⟨[statement, key.name], ?_, .cons (hthere.mono fun _ => .inr)
        (.cons (stands_key ht hkey ?_) .nil)⟩ .nil) (by decide)
    · simp [LineForm.executed, TableModule.line, toString, String.append_assoc]
    · simp [Signature.names, TableModule.onKey, TableModule.keyBinding]

end

section

variable (hfound : List.Forall₂ (Found r.examine.tables) (c.variants t) xs)

include hfound

theorem fits_functions : ∀ f ∈ TableModule.functions t, f.Fits (There c t xs) := by
  have hquery := stands_class ht hfound (k := TableModule.queryClass t (xs.map (·.relationship)))
    (by simp [TableModule.classes])
  have hcreate := stands_class ht hfound (k := TableModule.createClass t) (by simp [TableModule.classes])
  have hchanges := stands_class ht hfound (k := TableModule.updateClass t) (by simp [TableModule.classes])
  simp only [TableModule.functions, List.forall_mem_append, List.forall_mem_cons]
  refine ⟨⟨⟨⟨⟨⟨⟨⟨fits_query ht hquery, ?insert, by simp⟩, ?insertMany⟩, ?findById⟩, ?findAll, by simp⟩, ?update⟩,
    ?onKey⟩, ?upsert⟩, ?count, fits_truncate, fits_tableExists, by simp⟩
  case insert =>
    exact fits_writing ht (by decide) (stands_there (by decide) (supplied_common _ (by decide))) (by decide)
  case insertMany =>
    split
    · next hinputs => exact List.forall_mem_singleton.mpr (fits_insertMany ht hcreate (by simpa using hinputs))
    · simp
  case findById =>
    simp only [List.forall_mem_map, Option.mem_toList]
    exact fun key hkey => fits_findById ht hkey
  case findAll => exact fits_running (by decide) (by decide) (stands_list (stands_record ht))
  case update =>
    split
    · next hinputs =>
        simp only [List.forall_mem_map, Option.mem_toList]
        exact fun key hkey => fits_update ht hkey hchanges (by simpa using hinputs)
    · simp
  case onKey =>
    simp only [List.forall_mem_flatMap, Option.mem_toList, List.forall_mem_cons]
    refine fun key hkey => ⟨fits_onKey ht hkey (by decide) (by decide) ?_ (by simp), ?_⟩
    · simp [TableModule.keyConstants, TableModule.sql, TableModule.constant]
    · split
      · next hsoft =>
          refine List.forall_mem_singleton.mpr (fits_onKey ht hkey (by decide) (by decide) ?_ ?_)
          · simp [TableModule.keyConstants, TableModule.sql, TableModule.constant, hsoft]
          · simp; decide
      · simp
  case upsert =>
    simp only [List.forall_mem_map, Option.mem_toList]
    intro conflict hconflict
    obtain ⟨f, hf, rfl⟩ := Table.mem_of_conflictColumn? hconflict
    obtain ⟨statement, hstatement⟩ : ∃ s, t.upsertSql? = some s := ⟨_, by rw [Table.upsertSql?, hconflict]; rfl⟩
    have hthere : There c t xs "UPSERT_SQL" :=
      supplied_constant (a := TableModule.sql "UPSERT_SQL" statement)
        (by simp [TableModule.constants, hstatement])
    exact fits_writing ht (by decide) (stands_there (by decide) hthere)
      (unquoted_around (by decide) (isIdentifier_field ht hf) (by decide))
  case count =>
    exact fits_running (by decide) (by decide) (stands_common (by simp [commonTexts]))

/-! ### The module -/

theorem covered_linkedModule {style : Code.Style} :
    ∀ s ∈ (linkedModule c t xs).inScope style, s.Covered (There c t xs) := by
  refine Module.covered (fun i hi => ?_) (supplied_common _ (by decide))
  rw [items_linkedModule, List.mem_cons, List.mem_append] at hi
  rcases hi with rfl | hi | hi
  · exact fits_constants
  · obtain ⟨k, hk, rfl⟩ := List.mem_map.mp hi
    exact fits_classes ht hfound k hk
  · obtain ⟨f, hf, rfl⟩ := List.mem_map.mp hi
    exact fits_functions ht hfound f hf

end

end

/-- The helpers and types that the modules of tables use, each with the module that has it. -/
def helpers (c : Config) : List (String × String) :=
  [("uuid", "UUID"), ("datetime", "datetime")]
    ++ ["Any", "Optional", "List", "Dict", "ClassVar", "Sequence"].map ("typing", ·)
    ++ ["BaseModel", "ConfigDict", "Field"].map ("pydantic", ·)
    ++ ["QueryBuilder", "Relation"].map (s!"{c.runtimePackage}.query", ·)
    ++ ["require_row", "build_insert_many", "build_update"].map (s!"{c.runtimePackage}.crud", ·)
    ++ ["base_values", "decode_one", "decode_many"].map (s!"{c.runtimePackage}.hydration", ·)

def helperNames : List String :=
  ["UUID", "datetime", "Any", "Optional", "List", "Dict", "ClassVar", "Sequence", "BaseModel", "ConfigDict",
    "Field", "QueryBuilder", "Relation", "require_row", "build_insert_many", "build_update", "base_values",
    "decode_one", "decode_many"]

theorem names_helpers (c : Config) : (helpers c).map Prod.snd = helperNames := rfl

theorem Asked.mem_helpers {source n : String} (h : Asked c t source n) : (source, n) ∈ helpers c := by
  cases h with
  | typing h =>
      simp only [List.mem_cons, List.not_mem_nil, or_false] at h
      rcases h with rfl | rfl | rfl | rfl | rfl <;> simp [helpers]
  | validation h =>
      simp only [List.mem_cons, List.not_mem_nil, or_false] at h
      rcases h with rfl | rfl <;> simp [helpers]
  | query h =>
      simp only [List.mem_cons, List.not_mem_nil, or_false] at h
      rcases h with rfl | rfl <;> simp [helpers]
  | @decoder rel _ =>
      unfold TableModule.decoder
      split <;> simp [helpers]
  | @type f _ _ _ himported =>
      cases hbase : f.type.base <;> rw [hbase] at himported <;> cases himported <;> simp [helpers]
  | _ => simp [helpers]

/-- A helper is asked of one module only. -/
theorem Asked.of_helper {e : String × String} (he : e ∈ helpers c) {source : String}
    (h : Asked c t source e.2) : Asked c t e.1 e.2 := by
  have hnodup : ((helpers c).map Prod.snd).Nodup := by
    rw [names_helpers]
    decide +kernel
  have heq : e = (source, e.2) := List.inj_on_of_nodup_map hnodup he h.mem_helpers rfl
  rw [heq]
  exact h

/-- Names that are there without an import and are not those of classes or of other modules. -/
def plainNames : List String :=
  builtinNames ++ constantNames ++ functionNames

/-- Where the names come from that are there: they are imported, they are those of classes or of other modules,
or they are plain. -/
theorem Supplied.origin {n : String} (h : There c t xs n) : (∃ source, Asked c t source n) ∨
    (∃ k ∈ (linkedModule c t xs).classes, n ∈ words k.name) ∨
      (∃ x ∈ (linkedModule c t xs).siblings, n ∈ words x.alias_) ∨ n ∈ plainNames := by
  have hplain : ∀ name ∈ constantNames ++ functionNames, IsName name := by decide +kernel
  have hdefined {name : String} (hname : name ∈ constantNames ++ functionNames) (hn : n ∈ words name) :
      n ∈ plainNames := by
    rw [words_of_isName (hplain name hname), List.mem_singleton] at hn
    rw [hn, plainNames, List.append_assoc]
    exact List.mem_append_right _ hname
  cases h with
  | imported hg hgives => exact .inl ⟨_, gives_importGroups.mp ⟨_, hg, hgives⟩⟩
  | sibling hx hn => exact .inr (.inr (.inl ⟨_, hx, hn⟩))
  | builtin hn => exact .inr (.inr (.inr (List.mem_append_left _ (List.mem_append_left _ hn))))
  | defined hname hn =>
      rw [names_linkedModule, List.mem_append, List.mem_append] at hname
      rcases hname with hname | hname | hname
      · exact .inr (.inr (.inr (hdefined (List.mem_append_left _ ((names_constants t).subset hname)) hn)))
      · obtain ⟨k, hk, rfl⟩ := List.mem_map.mp hname
        exact .inr (.inl ⟨k, by rwa [classes_linkedModule], hn⟩)
      · exact .inr (.inr (.inr (hdefined (List.mem_append_right _ (names_functions t hname)) hn)))

/-- The siblings of a module are the other tables that its relationships lead to. -/
theorem mem_siblings (hfound : List.Forall₂ (Found r.examine.tables) (c.variants t) xs) {x : Code.Sibling} :
    x ∈ (linkedModule c t xs).siblings ↔ x.alias_ = Code.moduleAlias x.module ∧ x.module ≠ t.name ∧
      ∃ rel ∈ c.variants t, rel.references.table = x.module := by
  rw [siblings_linkedModule, relationships_of_found hfound, List.mem_map]
  constructor
  · rintro ⟨name, hname, rfl⟩
    exact ⟨rfl, mem_relatedTables.mp hname⟩
  · rintro ⟨halias, hrelated⟩
    exact ⟨x.module, mem_relatedTables.mpr hrelated, by rw [← halias]⟩

theorem starts_of_mem_alias {table n : String} (h : isIdentifier table = true)
    (hn : n ∈ words (Code.moduleAlias table)) : Schema.startsWith "_" n = true := by
  obtain ⟨name, hname, hbegins, hwords⟩ := Code.words_of_isIdentifier (isIdentifier_alias h)
  rw [hwords, List.mem_singleton] at hn
  have hchars : (Code.moduleAlias table).toList = '_' :: table.toList := by simp [Code.moduleAlias]
  rw [hchars, List.prefix_cons_iff] at hbegins
  obtain ⟨rest, hrest, -⟩ := hbegins.resolve_left hname.ne_nil
  simp [Schema.startsWith, hn, hrest]

/-- The imports of a module cover what its lines read. -/
structure ImportsCover (c : Config) (t : Table) (m : Module) : Prop where
  /-- The blocks are those of three groups, which share out all that was collected. -/
  blocks : m.imports = (importGroups c (tableImports c t)).map Code.Imports.block
  kept : (importGroups c (tableImports c t)).flatten.Perm (tableImports c t)
  brought : ∀ source n, (tableImports c t).Gives source n → ∃ b ∈ m.imports, Code.Imports.Brings b source n
  /-- Every line of the module's definitions stands in a scope, and what it reads is bound there or is there in
  the module. -/
  lines : (m.inScope c.style).map (·.line) = m.items.flatMap (Code.Item.lines c.style)
  covered : ∀ s ∈ m.inScope c.style, s.Covered (Supplied c t m)
  /-- A helper is imported from the module that has it, unless what is read is bound around the line or is a class
  of that name. -/
  helpers : ∀ e ∈ helpers c, ∀ s ∈ m.inScope c.style, e.2 ∈ reads s.line.text →
    e.2 ∈ s.bound ∨ (∃ k ∈ m.classes, e.2 ∈ words k.name) ∨
      ∃ b ∈ m.imports, Code.Imports.Brings b e.1 e.2
  aliases : ∀ s ∈ m.inScope c.style, ∀ n ∈ reads s.line.text, Schema.startsWith "_" n = true →
    n ∈ s.bound ∨ (∃ k ∈ m.classes, n ∈ words k.name) ∨ ∃ x ∈ m.siblings, n ∈ words x.alias_
  /-- Other tables that relationships lead to are imported in the last lines, under their aliases. -/
  related : ∀ rel ∈ c.variants t, rel.references.table ≠ t.name →
    ⟨rel.references.table, Code.moduleAlias rel.references.table⟩ ∈ m.siblings
  last : ∃ before, m.lines c.style = before ++ Module.siblingLines m.siblings ∧
    ∀ x ∈ m.siblings, s!"from . import {x.module} as {x.alias_}  # noqa: E402" ∈ Module.siblingLines m.siblings

/-- The imports of every accepted table's module cover what its lines read, with any settings. -/
theorem imports_cover_lines (c : Config) (ht : t ∈ r.examine.tables) :
    ∃ m, tableModule c t r.examine.tables = .ok m ∧ ImportsCover c t m := by
  obtain ⟨xs, hmodule, hfound⟩ := tableModule_ok (c := c) ht
  have hcovered : ∀ s ∈ (linkedModule c t xs).inScope c.style, s.Covered (There c t xs) :=
    covered_linkedModule ht hfound
  have hbrought {source n : String} (h : Asked c t source n) :
      ∃ b ∈ (linkedModule c t xs).imports, Code.Imports.Brings b source n := by
    obtain ⟨g, hg, hgives⟩ := gives_importGroups.mpr h
    exact ⟨g.block, List.mem_map_of_mem hg, Code.Imports.brings_block hgives⟩
  have hsiblings : ∀ x ∈ (linkedModule c t xs).siblings, ∀ n ∈ words x.alias_,
      Schema.startsWith "_" n = true := by
    intro x hx n hn
    obtain ⟨halias, -, rel, hrel, hmodule⟩ := (mem_siblings hfound).mp hx
    obtain ⟨u, hu, hname⟩ :=
      Registry.exists_table (Registry.target_mem_accepted ht (variants_subset c t hrel))
    rw [halias, ← hmodule, ← hname] at hn
    exact starts_of_mem_alias (isIdentifier_table hu) hn
  have hapart : ∀ n ∈ helperNames, Schema.startsWith "_" n = false ∧ n ∉ plainNames := by
    decide +kernel
  refine ⟨_, hmodule, ?_⟩
  constructor
  case blocks => exact importBlocks_eq c _
  case kept => exact importGroups_perm c t
  case brought => exact fun source n h => hbrought (gives_tableImports.mp h)
  case lines => exact Module.map_line_inScope _ _
  case covered => exact hcovered
  case helpers =>
    intro e he s hs hread
    have hname : e.2 ∈ helperNames := names_helpers c ▸ List.mem_map_of_mem he
    refine (hcovered s hs e.2 hread).imp_right fun hthere => ?_
    rcases hthere.origin with ⟨source, hasked⟩ | hclass | ⟨x, hx, hn⟩ | hplain
    · exact .inr (hbrought (hasked.of_helper he))
    · exact .inl hclass
    · exact absurd (hsiblings x hx _ hn) (by simp [(hapart _ hname).1])
    · exact absurd hplain (hapart _ hname).2
  case aliases =>
    intro s hs n hread hstarts
    refine (hcovered s hs n hread).imp_right fun hthere => ?_
    rcases hthere.origin with ⟨source, hasked⟩ | hclass | hsibling | hplain
    · have hname : n ∈ helperNames := names_helpers c ▸ List.mem_map_of_mem hasked.mem_helpers
      exact absurd hstarts (by simp [(hapart _ hname).1])
    · exact .inl hclass
    · exact .inr hsibling
    · have hnone : ∀ n ∈ plainNames, Schema.startsWith "_" n = false := by decide +kernel
      exact absurd hstarts (by simp [hnone n hplain])
  case related =>
    exact fun rel hrel hother => (mem_siblings hfound).mpr ⟨rfl, hother, rel, hrel, rfl⟩
  case last => exact ⟨_, rfl, fun x hx => Code.Sibling.mem_lines hx⟩

/-- Posts lead to users, whose module they import under an alias, with what decodes one record. -/
theorem imports_cover_lines_posts :
    posts ∈ blog.examine.tables ∧ ∃ m, tableModule {} posts blog.examine.tables = .ok m ∧
      ImportsCover {} posts m ∧ ⟨"users", "_users"⟩ ∈ m.siblings ∧
      ∃ b ∈ m.imports, Code.Imports.Brings b "fluentorm.hydration" "decode_one" := by
  have haccepted : posts ∈ blog.examine.tables := by decide +kernel
  obtain ⟨m, hmodule, hcover⟩ := imports_cover_lines {} (r := blog) (t := posts) haccepted
  have hrel : ({ column := "user_id", references := { table := "users" } } : Relationship) ∈
      Config.variants {} posts := by decide +kernel
  exact ⟨haccepted, m, hmodule, hcover, hcover.related _ hrel (by decide),
    hcover.brought _ _ (gives_tableImports.mpr (Asked.decoder hrel))⟩

end

end TableLoom.Generation
