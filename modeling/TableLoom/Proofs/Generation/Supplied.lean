import TableLoom.Proofs.Code.Scopes
import TableLoom.Proofs.Generation.Tokens

/-!
The names that are there in the module of an accepted table: those that it imports or defines, the aliases
of other modules, and those that the language has. They are enough for its types and for the names of its
classes. What it imports depends on its columns, its key and its relationships; the three groups that the
imports are written in share them out, and lose none.
-/

namespace TableLoom

namespace Code

theorem Wordy.ascii {s : String} (h : Wordy s) : Text.Ascii s := by
  intro c hc
  rcases h c hc with hname | rfl
  · exact Text.toNat_of_isNameRest hname
  · decide

theorem Wordy.pascal {s : String} (h : Wordy s) : Wordy (Naming.pascal s) := by
  intro d hd
  obtain ⟨c, hc, rfl | rfl⟩ := Naming.mem_pascal h.ascii hd
  · exact h d hc
  · exact (h c hc).imp Text.isNameRest_toUpper fun heq => by rw [heq]; decide

end Code

namespace Generation

open Code (Assignment Imports Module RecordClass Stands Template Wordy readsFrom words words_of_isName)
open Schema (Field Registry Relationship Table)
open Text (IsName isIdentifier)

/-! ### What is imported -/

section

variable {c : Config} {t : Table} {source name : String}

/-- The names that the module of a table needs from other packages. -/
inductive Asked (c : Config) (t : Table) : String → String → Prop
  | typing {n : String} : n ∈ ["Any", "ClassVar", "Dict", "List", "Optional"] → Asked c t "typing" n
  | sequence : t.inputFields ≠ [] → Asked c t "typing" "Sequence"
  | validation {n : String} : n ∈ ["BaseModel", "ConfigDict"] → Asked c t "pydantic" n
  | field {f : Field} : f ∈ t.fields → f.redacted = true → Asked c t "pydantic" "Field"
  | requireRow : Asked c t s!"{c.runtimePackage}.crud" "require_row"
  | insertMany : t.inputFields ≠ [] → Asked c t s!"{c.runtimePackage}.crud" "build_insert_many"
  | update : t.inputFields ≠ [] → t.keyField?.isSome = true →
      Asked c t s!"{c.runtimePackage}.crud" "build_update"
  | baseValues : Asked c t s!"{c.runtimePackage}.hydration" "base_values"
  | decoder {rel : Relationship} : rel ∈ c.variants t →
      Asked c t s!"{c.runtimePackage}.hydration" (TableModule.decoder rel)
  | query {n : String} : n ∈ ["QueryBuilder", "Relation"] → Asked c t s!"{c.runtimePackage}.query" n
  | type {f : Field} {source n : String} : f ∈ t.fields → f.type.base.imported = some (source, n) →
      Asked c t source n

theorem gives_imports : t.imports.Gives source name ↔ ∃ f ∈ t.fields,
    f.type.base.imported = some (source, name) ∨
      (f.nullable && f.type.base != .json) = true ∧ "typing" = source ∧ name = "Optional" := by
  have hwhen {b : Bool} {acc : Imports} :
      (if b then acc.add "typing" "Optional" else acc).Gives source name ↔
        acc.Gives source name ∨ b = true ∧ "typing" = source ∧ name = "Optional" := by
    cases b <;> simp [Imports.add, Imports.gives_addAll]
  refine (Imports.gives_foldl (fun acc f => ?_) t.fields []).trans (or_iff_right Imports.gives_nil)
  refine hwhen.trans ?_
  rw [← or_assoc]
  refine or_congr_left ?_
  cases f.type.base.imported with
  | none => simp
  | some e => simp [Imports.add, Imports.gives_addAll, Prod.ext_iff, eq_comm]

/-- The module of a table imports what it needs and nothing else. -/
theorem gives_tableImports : (tableImports c t).Gives source name ↔ Asked c t source name := by
  have hwhen {b : Bool} {names : List String} {n : String} :
      n ∈ (if b then names else []) ↔ b = true ∧ n ∈ names := by
    cases b <;> simp
  have hinputs : (!t.inputFields.isEmpty) = true ↔ t.inputFields ≠ [] := by simp
  rw [tableImports, Imports.gives_mergeAll]
  simp only [List.exists_mem_cons_iff, Imports.gives_cons, List.mem_append, hwhen, Imports.gives_nil]
  simp only [gives_imports, hinputs, List.mem_map, List.mem_singleton, List.any_eq_true, List.not_mem_nil,
    false_and, exists_false, or_false]
  constructor
  · rintro ((⟨rfl, h | ⟨hin, rfl⟩⟩ | ⟨rfl, h | ⟨⟨f, hf, hred⟩, rfl⟩⟩ | ⟨rfl, rfl | ⟨hin, rfl | ⟨hkey, rfl⟩⟩⟩ |
      ⟨rfl, rfl | ⟨rel, hrel, rfl⟩⟩ | ⟨rfl, h⟩) | ⟨f, hf, h | ⟨-, rfl, rfl⟩⟩)
    · exact .typing h
    · exact .sequence hin
    · exact .validation h
    · exact .field hf hred
    · exact .requireRow
    · exact .insertMany hin
    · exact .update hin hkey
    · exact .baseValues
    · exact .decoder hrel
    · exact .query h
    · exact .type hf h
    · exact .typing (by decide)
  · intro h
    cases h with
    | typing h => exact .inl (.inl ⟨rfl, .inl h⟩)
    | sequence hin => exact .inl (.inl ⟨rfl, .inr ⟨hin, rfl⟩⟩)
    | validation h => exact .inl (.inr (.inl ⟨rfl, .inl h⟩))
    | field hf hred => exact .inl (.inr (.inl ⟨rfl, .inr ⟨⟨_, hf, hred⟩, rfl⟩⟩))
    | requireRow => exact .inl (.inr (.inr (.inl ⟨rfl, .inl rfl⟩)))
    | insertMany hin => exact .inl (.inr (.inr (.inl ⟨rfl, .inr ⟨hin, .inl rfl⟩⟩)))
    | update hin hkey => exact .inl (.inr (.inr (.inl ⟨rfl, .inr ⟨hin, .inr ⟨hkey, rfl⟩⟩⟩)))
    | baseValues => exact .inl (.inr (.inr (.inr (.inl ⟨rfl, .inl rfl⟩))))
    | decoder hrel => exact .inl (.inr (.inr (.inr (.inl ⟨rfl, .inr ⟨_, hrel, rfl⟩⟩))))
    | query h => exact .inl (.inr (.inr (.inr (.inr ⟨rfl, h⟩))))
    | type hf h => exact .inr ⟨_, hf, .inl h⟩

theorem Asked.home (h : Asked c t source name) :
    source ∈ ["datetime", "typing", "uuid"] ∨ source = "pydantic" ∨
      (c.runtimePackage ++ ".").toList <+: source.toList := by
  cases h with
  | typing _ | sequence _ => exact .inl (by decide)
  | validation _ | field _ _ => exact .inr (.inl rfl)
  | requireRow | insertMany _ | update _ _ => exact .inr (.inr (by simp [toString]))
  | baseValues | decoder _ => exact .inr (.inr (by simp [toString]))
  | query _ => exact .inr (.inr (by simp [toString]))
  | @type f _ _ _ himported =>
      refine .inl ?_
      cases hbase : f.type.base <;> rw [hbase] at himported <;> cases himported <;> decide

/-- What is imported stands in one group and in no other. -/
theorem importGroups_perm (c : Config) (t : Table) :
    (importGroups c (tableImports c t)).flatten.Perm (tableImports c t) := by
  let runtime := (c.runtimePackage ++ ".").toList
  have hgroup : ∀ e ∈ tableImports c t,
      (e.1 == "pydantic") = (e.1 == "pydantic" && !isBaseModule e.1) ∧
        (e.1 != "pydantic" && runtime.isPrefixOf e.1.toList) =
          (!(e.1 == "pydantic") && !isBaseModule e.1) := by
    intro e he
    obtain ⟨n, hn⟩ := List.exists_mem_of_ne_nil _ (importable_tableImports c t e he).1
    have hasked : Asked c t e.1 n := gives_tableImports.mp ⟨e, he, rfl, hn⟩
    have hplain : ∀ m ∈ ["pydantic", "datetime", "typing", "uuid"], '.' ∉ m.toList := by decide
    rcases hasked.home with hbase | hpydantic | hruntime
    · have hother : runtime.isPrefixOf e.1.toList = false := by
        rw [Bool.eq_false_iff, ne_eq, List.isPrefixOf_iff_prefix]
        exact fun h => hplain _ (List.mem_cons_of_mem _ hbase) (h.subset (by simp [runtime]))
      rw [hother]
      generalize e.1 = m at hbase
      revert m
      decide
    · simp [hpydantic, isBaseModule]
    · have hmem : e.1 ∉ ["pydantic", "datetime", "typing", "uuid"] :=
        fun h => hplain _ h (hruntime.subset (by simp))
      rw [List.mem_cons, not_or] at hmem
      simpa [isBaseModule, runtime, hmem, bne] using hruntime
  have hfirst : (importGroups c (tableImports c t)).flatten =
      (tableImports c t).filter (isBaseModule ·.1) ++
        (((tableImports c t).filter (!isBaseModule ·.1)).filter (·.1 == "pydantic") ++
          ((tableImports c t).filter (!isBaseModule ·.1)).filter (!·.1 == "pydantic")) := by
    simp only [importGroups, List.filter_filter, List.flatten_cons, List.flatten_nil, List.append_nil]
    rw [List.filter_congr fun e he => (hgroup e he).1, List.filter_congr fun e he => (hgroup e he).2]
  rw [hfirst]
  exact (List.Perm.append_left _ (List.filter_append_perm _ _)).trans (List.filter_append_perm _ _)

/-- What the module of a table imports from outside the package: each name that it needs stands in one of
its three groups. -/
theorem gives_importGroups :
    (∃ g ∈ importGroups c (tableImports c t), g.Gives source name) ↔ Asked c t source name := by
  rw [← gives_tableImports]
  simp only [Imports.Gives, ← (importGroups_perm c t).mem_iff, List.mem_flatten]
  tauto

end

/-! ### What is there -/

/-- Names that the language has by itself. -/
def builtinNames : List String :=
  ["str", "bool", "int", "float", "tuple", "len", "set", "classmethod"]

/-- A name that is there in the module of a table: it is imported, defined, the alias of a sibling or
built in. -/
inductive Supplied (c : Config) (t : Table) (m : Module) : String → Prop
  | imported {g : Code.Imports} {source n : String} : g ∈ importGroups c (tableImports c t) →
      g.Gives source n → Supplied c t m n
  | defined {name n : String} : name ∈ m.names → n ∈ words name → Supplied c t m n
  | sibling {s : Code.Sibling} {n : String} : s ∈ m.siblings → n ∈ words s.alias_ → Supplied c t m n
  | builtin {n : String} : n ∈ builtinNames → Supplied c t m n

/-- A name that is there in the module of a table whose relationships have found their targets. -/
abbrev There (c : Config) (t : Table) (xs : List Resolved) : String → Prop :=
  Supplied c t (linkedModule c t xs)

section

variable {c : Config} {r : Registry} {t : Table} {xs : List Resolved}

theorem Asked.supplied {m : Module} {source n : String} (h : Asked c t source n) : Supplied c t m n := by
  obtain ⟨g, hg, hgives⟩ := gives_importGroups.mpr h
  exact .imported hg hgives

theorem isIdentifier_table (ht : t ∈ r.examine.tables) : isIdentifier t.name = true :=
  Registry.isIdentifier_names ht _ (by simp [Table.names, Table.sourceNames])

theorem isIdentifier_record (ht : t ∈ r.examine.tables) : isIdentifier t.recordName = true :=
  Registry.isIdentifier_names ht _ (by simp [Table.names, Table.sourceNames])

theorem isIdentifier_field (ht : t ∈ r.examine.tables) {f : Field} (hf : f ∈ t.fields) :
    isIdentifier f.name = true :=
  Registry.isIdentifier_names ht _
    (by simp [Table.names, Table.sourceNames, Table.fieldNames, List.mem_map_of_mem hf])

theorem isIdentifier_member (ht : t ∈ r.examine.tables) {rel : Relationship} (hrel : rel ∈ c.variants t) :
    isIdentifier rel.member = true :=
  Registry.isIdentifier_names ht _ (by
    simp [Table.names, Table.sourceNames, Table.memberNames, List.mem_map_of_mem (variants_subset c t hrel)])

theorem isIdentifier_alias {table : String} (h : isIdentifier table = true) :
    isIdentifier (Code.moduleAlias table) = true := by
  rw [Text.isIdentifier_iff] at h ⊢
  rcases h with h | ⟨name, h, rfl⟩
  · exact .inl (Code.isName_alias h)
  · exact .inr ⟨Code.moduleAlias name, Code.isName_alias h, (String.append_assoc ..).symm⟩

theorem supplied_class {k : RecordClass} (hk : k ∈ TableModule.classes t xs) {n : String}
    (hn : n ∈ words k.name) : There c t xs n := by
  refine .defined ?_ hn
  rw [names_linkedModule]
  exact List.mem_append_right _ (List.mem_append_left _ (List.mem_map_of_mem hk))

theorem supplied_constant {a : Assignment} (ha : a ∈ TableModule.constants t) : There c t xs a.name := by
  have hnames : ∀ n ∈ constantNames, IsName n := by decide +kernel
  have hname := List.mem_map_of_mem (f := (·.name)) ha
  refine .defined ?_ (by rw [words_of_isName (hnames _ ((names_constants t).subset hname))]; simp)
  rw [names_linkedModule]
  exact List.mem_append_left _ hname

theorem supplied_query : There c t xs "query" := by
  refine .defined ?_ (by rw [words_of_isName (show IsName "query" by decide)]; simp)
  rw [names_linkedModule]
  refine List.mem_append_right _ (List.mem_append_right _ (List.mem_map.mpr ⟨TableModule.query t, ?_, rfl⟩))
  simp [TableModule.functions]

/-- Names that every module of a table has. -/
def commonNames : List String :=
  builtinNames ++ ["Any", "ClassVar", "Dict", "List", "Optional"] ++ ["BaseModel", "ConfigDict"]
    ++ ["QueryBuilder", "Relation"] ++ ["TABLE_NAME", "SELECT_ALL_SQL", "COLUMNS", "INPUT_COLUMNS",
      "INSERT_DEFAULTS", "INSERT_SQL", "TRUNCATE_SQL", "TABLE_EXISTS_SQL"]
    ++ ["require_row", "base_values", "query"]

theorem supplied_common : ∀ n ∈ commonNames, There c t xs n := by
  have hconstants : ∀ n ∈ ["TABLE_NAME", "SELECT_ALL_SQL", "COLUMNS", "INPUT_COLUMNS", "INSERT_DEFAULTS",
      "INSERT_SQL", "TRUNCATE_SQL", "TABLE_EXISTS_SQL"], There c t xs n := by
    intro n hn
    have hmem : n ∈ (TableModule.constants t).map (·.name) := by
      revert n
      simp [TableModule.constants, TableModule.sql, TableModule.constant]
    obtain ⟨a, ha, rfl⟩ := List.mem_map.mp hmem
    exact supplied_constant ha
  simp only [commonNames, List.forall_mem_append]
  refine ⟨⟨⟨⟨⟨fun n hn => .builtin hn, fun n hn => (Asked.typing hn).supplied⟩,
    fun n hn => (Asked.validation hn).supplied⟩, fun n hn => (Asked.query hn).supplied⟩, hconstants⟩, ?_⟩
  simp only [List.forall_mem_cons, List.not_mem_nil, false_implies, implies_true, and_true]
  exact ⟨Asked.requireRow.supplied, Asked.baseValues.supplied, supplied_query⟩

/-- Texts that read only names that every module has. -/
def commonTexts : List String :=
  ["Any", "bool", "int", "str", "tuple", "None", "True", "False", "BaseModel", "QueryBuilder", "TABLE_NAME",
    "SELECT_ALL_SQL", "COLUMNS", "ClassVar[str]", "Dict[str, str]", "Dict[str, Any]", "\x7b\x7d",
    "ConfigDict(from_attributes=True)", "ConfigDict(extra=\"forbid\")"]

theorem stands_common {s : String} (h : s ∈ commonTexts) : Stands (There c t xs) s := by
  have hcommon : ∀ s ∈ commonTexts, (⟨s, []⟩ : Template).whole = true ∧
      ∀ n ∈ readsFrom ":" (words s), n ∈ commonNames := by
    decide +kernel
  exact Code.stands_text (hcommon s h).1 fun n hn => supplied_common n ((hcommon s h).2 n hn)

theorem wordy_endings {rels : List Relationship}
    (members : ∀ rel ∈ rels, isIdentifier rel.member = true) : ∀ e ∈ Table.endings rels, Wordy e := by
  have hfixed : ∀ n ∈ ["Create", "Update", "With", "AllRelations", "Query"], IsName n := by decide
  simp only [List.forall_mem_cons] at hfixed
  obtain ⟨hcreate, hupdate, hwith, hall, hquery, -⟩ := hfixed
  have hassociations : ∀ a ∈ Table.associations rels, Wordy a := by
    rw [Table.associations, List.forall_mem_append, List.forall_mem_map, List.forall_mem_singleton]
    exact ⟨fun rel hrel => (Wordy.of_isIdentifier (members rel hrel)).pascal, .of_isName hall⟩
  simp only [Table.endings, List.forall_mem_append, List.forall_mem_cons]
  refine ⟨⟨⟨by simp [Wordy, Text.Each], .of_isName hcreate, .of_isName hupdate, by simp⟩, ?_⟩,
    .of_isName hquery, by simp⟩
  split
  · simp
  · exact List.forall_mem_map.mpr fun a ha => (Wordy.of_isName hwith).append (hassociations a ha)

section

variable (ht : t ∈ r.examine.tables)

include ht

theorem stands_record : Stands (There c t xs) t.recordName := by
  exact Code.stands_of_isIdentifier (isIdentifier_record ht) fun n hn =>
    supplied_class (k := TableModule.recordClass t) (by simp [TableModule.classes]) hn

theorem stands_class (hfound : List.Forall₂ (Found r.examine.tables) (c.variants t) xs) {k : RecordClass}
    (hk : k ∈ TableModule.classes t xs) : Stands (There c t xs) k.name := by
  have hname := List.mem_map_of_mem (f := (·.name)) hk
  rw [names_classes, relationships_of_found hfound] at hname
  obtain ⟨e, he, heq⟩ := List.mem_map.mp hname
  have hrecord := isIdentifier_record ht
  obtain ⟨first, rest, hchars, hfirst⟩ := Text.isNameStart_of_isIdentifier hrecord
  have hwordy : Wordy k.name :=
    heq ▸ (Wordy.of_isIdentifier hrecord).append (wordy_endings (fun rel hrel => isIdentifier_member ht hrel) e he)
  exact hwordy.stands (by rw [← heq, String.toList_append, hchars]; rfl)
    (Text.isNameRest_of_isNameStart hfirst) fun n hn => supplied_class hk hn

end

/-- A type that is made from another one. -/
theorem stands_generic {type : String} {b : String × String}
    (hmarks : b ∈ [("Optional[", "]"), ("List[", "]"), ("Optional[List[", "]]")])
    (h : Stands (There c t xs) type) : Stands (There c t xs) (b.1 ++ type ++ b.2) := by
  have hsound : ∀ b ∈ [("Optional[", "]"), ("List[", "]"), ("Optional[List[", "]]")],
      (⟨b.1, [(.given, b.2)]⟩ : Template).whole = true ∧
        readsFrom ":" (⟨b.1, [(.given, b.2)]⟩ : Template).tokens ⊆ commonNames := by
    decide
  obtain ⟨hwhole, hnames⟩ := hsound b hmarks
  have hfills : (⟨b.1, [(.given, b.2)]⟩ : Template).Fills (There c t xs) (b.1 ++ type ++ b.2) := by
    refine ⟨[type], ?_, .cons h .nil⟩
    simp [String.append_assoc]
  exact hfills.stands hwhole fun n hn => supplied_common n (hnames hn)

theorem stands_optional {type : String} (h : Stands (There c t xs) type) :
    Stands (There c t xs) s!"Optional[{type}]" :=
  stands_generic (b := ("Optional[", "]")) (by simp) h

theorem stands_list {type : String} (h : Stands (There c t xs) type) :
    Stands (There c t xs) s!"List[{type}]" :=
  stands_generic (b := ("List[", "]")) (by simp) h

theorem stands_optionalOf {type : String} (h : Stands (There c t xs) type) :
    Stands (There c t xs) (Code.optionalOf type) := by
  unfold Code.optionalOf
  split
  · exact h
  · exact stands_optional h

theorem stands_baseType {f : Field} (hf : f ∈ t.fields) : Stands (There c t xs) f.type.base.memberType := by
  have hname : ∀ b : Schema.BaseType, IsName b.memberType := by
    intro b
    cases b <;> decide
  have hthere : There c t xs f.type.base.memberType := by
    cases hbase : f.type.base with
    | uuid => exact (Asked.type hf (by rw [hbase]; rfl)).supplied
    | timestamp | timestamptz => exact (Asked.type hf (by rw [hbase]; rfl)).supplied
    | _ => exact supplied_common _ (by decide)
  refine Code.stands_of_isIdentifier (Text.isIdentifier_iff.mpr (.inl (hname _))) ?_
  rw [words_of_isName (hname _), List.forall_mem_singleton]
  exact hthere

theorem stands_memberType {f : Field} (hf : f ∈ t.fields) : Stands (There c t xs) f.memberType := by
  unfold Field.memberType
  split
  · exact stands_optional (stands_baseType hf)
  · exact stands_baseType hf

theorem stands_reference (ht : t ∈ r.examine.tables)
    (hfound : List.Forall₂ (Found r.examine.tables) (c.variants t) xs) {x : Resolved} (hx : x ∈ xs) :
    Stands (There c t xs) (t.recordReference x.target) := by
  obtain ⟨rel, hrel, rfl, htarget, hname⟩ := exists_left_of_paired hfound hx
  unfold Table.recordReference
  split
  · next hown =>
      have hsame : x.target = t := by
        have hknown := Registry.table?_known htarget
        rw [beq_iff_eq.mp hown, Registry.table?_known ht] at hknown
        exact (Option.some_inj.mp hknown).symm
      rw [hsame]
      exact stands_record ht
  · next hother =>
      let T : Template := ⟨"", [(.given, "."), (.hidden, "")]⟩
      have halias : Stands (There c t xs) (Code.moduleAlias x.target.name) := by
        refine Code.stands_of_isIdentifier (isIdentifier_alias (isIdentifier_table htarget)) fun n hn => ?_
        refine .sibling (s := ⟨x.target.name, Code.moduleAlias x.target.name⟩) ?_ hn
        rw [siblings_linkedModule]
        refine List.mem_map_of_mem (mem_relatedTables.mpr ⟨by simpa using hother, ?_⟩)
        exact ⟨_, List.mem_map_of_mem hx, hname.symm⟩
      have hfills : T.Fills (There c t xs) s!"{Code.moduleAlias x.target.name}.{x.target.recordName}" := by
        refine ⟨[Code.moduleAlias x.target.name, x.target.recordName], ?_,
          .cons halias (.cons (Code.oneWord_of_isIdentifier (isIdentifier_record htarget)) .nil)⟩
        simp [T, toString, String.append_assoc]
      exact hfills.stands_plain (by decide) (by decide)

end

end Generation

end TableLoom
