import TableLoom.Proofs.Generation.ClassNames
import TableLoom.Proofs.Generation.MemberNames
import TableLoom.Proofs.Schema.Names

/-!
The names of accepted tables where they are put into paths, statements and emitted source. A name that
holds no line break is one token there. The rules let one line break pass at the end of a name, and then
it is not.
-/

namespace TableLoom

open Text (IsName SingleToken tokens commas beginsApart endsApart beginsApart_append endsApart_append
  tokens_append_begins tokens_append_ends tokens_join tokens_names)

namespace Text

theorem IsName.append {s t : String} (h : IsName s) (ht : ∀ c ∈ t.toList, isNameRest c = true) :
    IsName (s ++ t) := by
  unfold IsName at h ⊢
  rw [String.toList_append]
  cases hs : s.toList with
  | nil => rw [hs] at h; cases h
  | cons c rest =>
      rw [hs, isNameChars, Bool.and_eq_true, List.all_eq_true] at h
      rw [List.cons_append, isNameChars, Bool.and_eq_true, List.all_eq_true, List.forall_mem_append]
      exact ⟨h.1, h.2, ht⟩

end Text

namespace Schema.Table

variable {t : Table}

/-- The table of a statement and the columns that it names, each a token of its own. The defaults are
given as free texts and stand between other tokens. -/
structure StatementTokens (t : Table) : Prop where
  selectAll : tokens t.selectAllSql = ["SELECT", t.name, ".", "*", "FROM", t.name]
  insertHead : tokens t.insertHead =
    if t.inputFields.isEmpty then ["INSERT", "INTO", t.name, "DEFAULT", "VALUES"]
    else ["INSERT", "INTO", t.name, "("] ++ commas (t.inputFields.map fun f => [f.name])
      ++ [")", "VALUES", "("] ++ commas ((insertCells 1 t.inputFields).map tokens) ++ [")"]
  insert : tokens t.insertSql = tokens t.insertHead ++ ["RETURNING", "*"]
  upsert : ∀ s ∈ t.upsertSql?, ∃ conflict ∈ t.fieldNames, ∃ written ⊆ t.fieldNames,
    tokens s = tokens t.insertHead
      ++ ["ON", "CONFLICT", "(", conflict, ")", "DO", "UPDATE", "SET"]
      ++ commas (written.map fun column => [column, "=", "EXCLUDED", ".", column])
      ++ ["RETURNING", "*"]
  find : ∀ key ∈ t.fieldNames,
    tokens (t.findSql key) = tokens t.selectAllSql ++ ["WHERE", key, "=", "$", "1"]
  findLive : ∀ key ∈ t.fieldNames,
    tokens (t.findLiveSql key) = tokens (t.findSql key) ++ ["AND", "deleted_at", "IS", "NULL"]
  softDelete : ∀ key ∈ t.fieldNames, tokens (t.softDeleteSql key) =
    ["UPDATE", t.name, "SET", "deleted_at", "=", "CURRENT_TIMESTAMP", "WHERE", key, "=", "$", "1"]
  delete : ∀ key ∈ t.fieldNames,
    tokens (t.deleteSql key) = ["DELETE", "FROM", t.name, "WHERE", key, "=", "$", "1"]
  truncate : tokens t.truncateSql =
    ["TRUNCATE", "TABLE", t.name, "RESTART", "IDENTITY", "CASCADE"]

theorem tokens_insertHead (name : IsName t.name) (fields : ∀ n ∈ t.fieldNames, IsName n) :
    tokens t.insertHead =
      if t.inputFields.isEmpty then ["INSERT", "INTO", t.name, "DEFAULT", "VALUES"]
      else ["INSERT", "INTO", t.name, "("] ++ commas (t.inputFields.map fun f => [f.name])
        ++ [")", "VALUES", "("] ++ commas ((insertCells 1 t.inputFields).map tokens) ++ [")"] := by
  have hinputs : tokens (Text.join ", " (t.inputFields.map (·.name))) =
      commas (t.inputFields.map fun f => [f.name]) := by
    rw [tokens_names, List.map_map]
    · rfl
    · exact fun n hn => fields n ((List.filter_sublist.map _).subset hn)
  unfold insertHead
  split
  · simp +decide only [toString, tokens_append_begins, tokens_append_ends, name.tokens]
    rfl
  · simp +decide only [toString, tokens_append_begins, tokens_append_ends, endsApart_append,
      name.tokens, hinputs, tokens_join]
    rfl

theorem tokens_upsertSql (fields : ∀ n ∈ t.fieldNames, IsName n) {s : String} (hs : s ∈ t.upsertSql?) :
    ∃ conflict ∈ t.fieldNames, ∃ written ⊆ t.fieldNames, tokens s = tokens t.insertHead
      ++ ["ON", "CONFLICT", "(", conflict, ")", "DO", "UPDATE", "SET"]
      ++ commas (written.map fun column => [column, "=", "EXCLUDED", ".", column])
      ++ ["RETURNING", "*"] := by
  obtain ⟨conflict, hconflict, rfl⟩ := Option.map_eq_some_iff.mp hs
  extract_lets others written
  have hmem : conflict ∈ t.fieldNames := by
    obtain ⟨f, hf, rfl⟩ := mem_of_conflictColumn? hconflict
    exact List.mem_map_of_mem hf
  have hwritten : written ⊆ t.fieldNames := by
    intro column hcolumn
    simp only [written, others] at hcolumn
    split at hcolumn
    · exact List.mem_singleton.mp hcolumn ▸ hmem
    · exact (List.filter_sublist.map _).subset (List.mem_filter.mp hcolumn).1
  have hhead : tokens s!" ON CONFLICT ({conflict}) DO UPDATE SET " =
      ["ON", "CONFLICT", "(", conflict, ")", "DO", "UPDATE", "SET"] := by
    simp +decide only [toString, tokens_append_begins, tokens_append_ends, (fields conflict hmem).tokens]
    rfl
  have hset : (written.map fun column => s!"{column} = EXCLUDED.{column}").map tokens =
      written.map fun column => [column, "=", "EXCLUDED", ".", column] := by
    rw [List.map_map]
    refine List.map_congr_left fun column hcolumn => ?_
    have hcolumn := (fields column (hwritten hcolumn)).tokens
    simp +decide only [Function.comp_apply, toString, tokens_append_begins, tokens_append_ends,
      endsApart_append, hcolumn]
    rfl
  have hbegins : beginsApart s!" ON CONFLICT ({conflict}) DO UPDATE SET " = true :=
    beginsApart_append (beginsApart_append (by decide) _) _
  have hends : endsApart s!" ON CONFLICT ({conflict}) DO UPDATE SET " = true :=
    endsApart_append _ (by decide)
  refine ⟨conflict, hmem, written, hwritten, ?_⟩
  rw [tokens_append_begins _ (by decide), tokens_append_ends (endsApart_append _ hends),
    tokens_append_begins _ hbegins, hhead, tokens_join, hset]
  rfl

theorem statementTokens (name : IsName t.name) (fields : ∀ n ∈ t.fieldNames, IsName n) :
    t.StatementTokens where
  selectAll := by
    unfold selectAllSql
    simp +decide only [toString, tokens_append_begins, tokens_append_ends, endsApart_append,
      name.tokens]
    rfl
  insertHead := tokens_insertHead name fields
  insert := tokens_append_begins _ (by decide)
  upsert := fun _ hs => tokens_upsertSql fields hs
  find := by
    intro key hkey
    unfold findSql
    simp +decide only [toString, tokens_append_begins, tokens_append_ends, endsApart_append,
      (fields key hkey).tokens, List.append_assoc]
    rfl
  findLive := fun key _ => tokens_append_begins _ (by decide)
  softDelete := by
    intro key hkey
    unfold softDeleteSql
    simp +decide only [toString, tokens_append_begins, tokens_append_ends, endsApart_append,
      name.tokens, (fields key hkey).tokens]
    rfl
  delete := by
    intro key hkey
    unfold deleteSql
    simp +decide only [toString, tokens_append_begins, tokens_append_ends, endsApart_append,
      name.tokens, (fields key hkey).tokens]
    rfl
  truncate := by
    unfold truncateSql
    simp +decide only [toString, tokens_append_begins, tokens_append_ends, name.tokens]
    rfl

end Schema.Table

namespace Code

/-- The functions of the module and of its classes. -/
def Module.callables (m : Module) : List Function :=
  m.functions ++ m.classes.flatMap (·.methods)

def Signature.bindings (s : Signature) : List Binding :=
  s.positional ++ s.named ++ s.others.toList

/-- The names that a module gives to something, and those of bases and of other modules. -/
def Module.identifiers (m : Module) : List String :=
  m.names ++ m.classes.flatMap (fun k => k.base :: k.members.map (·.name))
    ++ m.callables.flatMap (fun f => f.name :: f.signature.names)
    ++ m.siblings.flatMap fun s => [s.module, s.alias_]

theorem RecordClass.tokens_head {k : RecordClass} (name : IsName k.name) (base : IsName k.base)
    (style : Style) : ∃ head rest, k.lines style = head :: rest ∧
      tokens head.text = ["class", k.name, "(", k.base, ")", ":"] := by
  refine ⟨_, _, rfl, ?_⟩
  simp +decide only [toString, tokens_append_begins, tokens_append_ends, endsApart_append, name.tokens,
    base.tokens]
  rfl

theorem Binding.tokens_text {b : Binding} (name : IsName b.name) :
    [b.name, ":"] <+: tokens b.text := by
  have hhead (rest : String) : tokens (b.name ++ (": " ++ rest)) = [b.name, ":"] ++ tokens rest := by
    rw [tokens_append_begins _ (beginsApart_append (by decide) _), tokens_append_ends (by decide),
      name.tokens]
    rfl
  unfold text
  split
  · rw [String.append_assoc, String.append_assoc, String.append_assoc]
    exact hhead _ ▸ List.prefix_append _ _
  · rw [String.append_assoc]
    exact hhead _ ▸ List.prefix_append _ _

theorem Signature.tokens_head {name : String} (h : IsName name) (result : String) (s : Signature) :
    ∃ head rest, s.lines name result = head :: rest ∧ ["def", name, "("] <+: tokens head.text := by
  have hdef : tokens s!"def {name}(" = ["def", name, "("] := by
    simp +decide only [toString, tokens_append_begins, tokens_append_ends, h.tokens]
    rfl
  unfold lines
  split
  · refine ⟨_, _, rfl, ?_⟩
    rw [String.append_assoc, tokens_append_ends (endsApart_append _ (by decide)), hdef]
    exact List.prefix_append _ _
  · exact ⟨_, _, rfl, hdef ▸ List.prefix_refl _⟩

theorem isName_alias {table : String} (h : IsName table) : IsName (moduleAlias table) :=
  IsName.append (show IsName "_" by decide) h.chars

theorem Sibling.tokens_line {s : Sibling} (module : IsName s.module) (alias_ : IsName s.alias_) :
    tokens s!"from . import {s.module} as {s.alias_}  # noqa: E402" =
      ["from", ".", "import", s.module, "as", s.alias_, "#", "noqa", ":", "E402"] := by
  simp +decide only [toString, tokens_append_begins, tokens_append_ends, endsApart_append,
    module.tokens, alias_.tokens]
  rfl

theorem Sibling.mem_lines {s : Sibling} {siblings : List Sibling} (h : s ∈ siblings) :
    s!"from . import {s.module} as {s.alias_}  # noqa: E402" ∈ Module.siblingLines siblings := by
  rw [Module.siblingLines, if_neg (by simpa using List.ne_nil_of_mem h)]
  exact List.mem_append_right _ (List.mem_map.mpr ⟨s, h, rfl⟩)

/-- The names in a module are tokens of their own, and so they are read where the module's lines put
them: at the head of classes and functions, of members and parameters, and where modules are imported. -/
structure Module.Tokens (style : Style) (m : Module) : Prop where
  identifiers : ∀ n ∈ m.identifiers, IsName n
  classes : ∀ k ∈ m.classes, ∃ head rest, k.lines style = head :: rest ∧
    tokens head.text = ["class", k.name, "(", k.base, ")", ":"]
  members : ∀ k ∈ m.classes, ∀ b ∈ k.members, [b.name, ":"] <+: tokens b.text
  functions : ∀ f ∈ m.callables, ∃ head rest, f.signature.lines f.name f.result = head :: rest ∧
    ["def", f.name, "("] <+: tokens head.text
  parameters : ∀ f ∈ m.callables, ∀ b ∈ f.signature.bindings, [b.name, ":"] <+: tokens b.text
  siblings : ∀ s ∈ m.siblings, ∃ line ∈ siblingLines m.siblings, tokens line =
    ["from", ".", "import", s.module, "as", s.alias_, "#", "noqa", ":", "E402"]

theorem Module.mem_names {m : Module} {k : RecordClass} (hk : k ∈ m.classes) : k.name ∈ m.names := by
  obtain ⟨i, hi, hrecord⟩ := List.mem_filterMap.mp hk
  split at hrecord
  · exact List.mem_flatMap.mpr ⟨_, hi, Option.some_inj.mp hrecord ▸ List.mem_singleton_self _⟩
  · cases hrecord

theorem Module.tokens_of_names {m : Module} (h : ∀ n ∈ m.identifiers, IsName n) (style : Style) :
    m.Tokens style := by
  have hnames := h
  simp only [identifiers, List.forall_mem_append, List.forall_mem_flatMap, List.forall_mem_cons,
    List.forall_mem_map] at hnames
  obtain ⟨⟨⟨hdefined, hclasses⟩, hcallables⟩, hsiblings⟩ := hnames
  constructor
  case identifiers => exact h
  case classes =>
    exact fun k hk => RecordClass.tokens_head (hdefined _ (mem_names hk)) (hclasses k hk).1 style
  case members => exact fun k hk b hb => Binding.tokens_text ((hclasses k hk).2 b hb)
  case functions => exact fun f hf => Signature.tokens_head (hcallables f hf).1 _ _
  case parameters =>
    exact fun f hf b hb => Binding.tokens_text ((hcallables f hf).2 _
      (List.mem_append_right _ (List.mem_map_of_mem hb)))
  case siblings =>
    exact fun s hs => ⟨_, Sibling.mem_lines hs,
      Sibling.tokens_line (hsiblings s hs).1 (hsiblings s hs).2.1⟩

end Code

namespace Generation

open Code (Binding Function Module RecordClass isName_alias)
open Schema (Field Registry Relationship Table)

section

variable {c : Config} {r : Registry} {t : Table} {xs : List Resolved}

theorem names_linkedModule (c : Config) (t : Table) (xs : List Resolved) :
    (linkedModule c t xs).names = (TableModule.constants t).map (·.name)
      ++ ((TableModule.classes t xs).map (·.name) ++ (TableModule.functions t).map (·.name)) := by
  rw [Module.names, items_linkedModule, List.flatMap_cons, List.flatMap_append, List.flatMap_map,
    List.flatMap_map]
  simp only [Code.Item.names, ← List.map_eq_flatMap]

theorem isNameRest_endings {rels : List Relationship} (members : ∀ rel ∈ rels, IsName rel.member) :
    ∀ e ∈ Table.endings rels, ∀ d ∈ e.toList, Text.isNameRest d = true := by
  have hfixed : ∀ n ∈ ["Create", "Update", "With", "AllRelations", "Query"], IsName n := by
    decide +kernel
  simp only [List.forall_mem_cons] at hfixed
  obtain ⟨hcreate, hupdate, hwith, hall, hquery, -⟩ := hfixed
  have hassociations : ∀ a ∈ Table.associations rels, ∀ d ∈ a.toList, Text.isNameRest d = true := by
    rw [Table.associations, List.forall_mem_append, List.forall_mem_map, List.forall_mem_singleton]
    exact ⟨fun rel hrel => Text.isNameRest_pascal (members rel hrel), hall.chars⟩
  simp only [Table.endings, List.forall_mem_append, List.forall_mem_cons]
  refine ⟨⟨⟨by simp, hcreate.chars, hupdate.chars, by simp⟩, ?_⟩, hquery.chars, by simp⟩
  split
  · simp
  · rw [List.forall_mem_map]
    intro a ha
    rw [String.toList_append, List.forall_mem_append]
    exact ⟨hwith.chars, hassociations a ha⟩

theorem parameters_subset {f : Function} (hf : f ∈ TableModule.functions t) :
    f.signature.names ⊆ ["db", "rows", "include_deleted", "changes"] ++ t.fieldNames := by
  have hwriting (name statement doc : String) :
      (TableModule.writing t name statement doc).signature.names ⊆
        ["db", "rows", "include_deleted", "changes"] ++ t.fieldNames := by
    rw [names_writing, List.cons_subset]
    exact ⟨by simp, List.subset_append_of_subset_right _ (List.filter_sublist.map _).subset⟩
  have hrunning (name method result : String) :
      (TableModule.running t name method result).signature.names ⊆
        ["db", "rows", "include_deleted", "changes"] ++ t.fieldNames := by
    unfold TableModule.running
    split <;> simp [Code.Signature.names, TableModule.database, TableModule.withDeleted]
  have hkeyed {key : Field} (hkey : t.keyField? = some key) : key.name ∈ t.fieldNames :=
    List.mem_map_of_mem (Table.mem_of_keyField? hkey)
  rcases mem_functions hf with
    hf | ⟨key, hkey, rfl | rfl | ⟨name, -, statement, doc, rfl⟩⟩ | ⟨conflict, rfl⟩
  · simp only [List.mem_cons, List.not_mem_nil, or_false] at hf
    rcases hf with rfl | rfl | rfl | rfl | rfl | rfl | rfl
    · exact List.nil_subset _
    · exact hwriting ..
    · exact List.subset_append_of_subset_left _ (by decide : ["db", "rows"] ⊆ _)
    · exact hrunning ..
    · exact hrunning ..
    · exact List.subset_append_of_subset_left _ (by decide : ["db"] ⊆ _)
    · exact List.subset_append_of_subset_left _ (by decide : ["db"] ⊆ _)
  · rw [names_findById]
    split <;> simp [hkeyed hkey]
  · have hnames : (TableModule.update t key).signature.names = ["db", key.name, "changes"] := rfl
    simp [hnames, hkeyed hkey]
  · have hnames : (TableModule.onKey key name statement doc).signature.names = ["db", key.name] := rfl
    simp [hnames, hkeyed hkey]
  · exact hwriting ..

theorem methods_subset {k : RecordClass} (hk : k ∈ TableModule.classes t xs) {f : Function}
    (hf : f ∈ k.methods) : f.name ∈ ["from_row", "to_base", "from_base"] ∧
      f.signature.names ⊆ ["cls", "self", "row", "base", "relations"]
        ++ (xs.map (·.relationship)).map (·.member) := by
  rcases mem_methods hk hf with ⟨hname, hnames⟩ | ⟨hname, hnames⟩ | ⟨name, ys, hys, rfl, rfl⟩
  · simp [hname, hnames]
  · simp [hname, hnames]
  · refine ⟨by simp, ?_⟩
    match ys with
    | [] => exact List.subset_append_of_subset_left _ (by decide : ["cls", "base", "relations"] ⊆ _)
    | [y] =>
        have hnames : (TableModule.fromBase t name [y]).signature.names =
            ["cls", "base", y.relationship.member] := rfl
        have hy : y.relationship.member ∈ (xs.map (·.relationship)).map (·.member) :=
          List.mem_map_of_mem (List.mem_map_of_mem (List.singleton_sublist.mp hys))
        simp only [hnames, List.cons_subset]
        exact ⟨by simp, by simp, List.mem_append_right _ hy, List.nil_subset _⟩
    | _ :: _ :: _ =>
        exact List.subset_append_of_subset_left _ (by decide : ["cls", "base", "relations"] ⊆ _)

section

variable (h : r.Unbroken) (ht : t ∈ r.examine.tables)

include h ht

theorem isName_table : IsName t.name :=
  h.names ht _ (by simp [Table.names, Table.sourceNames])

theorem isName_record : IsName t.recordName :=
  h.names ht _ (by simp [Table.names, Table.sourceNames])

theorem isName_fields : ∀ n ∈ t.fieldNames, IsName n :=
  fun n hn => h.names ht n (by simp [Table.names, Table.sourceNames, hn])

theorem isName_relations : ∀ rel ∈ c.variants t, IsName rel.member :=
  fun _ hrel => h.names ht _ (List.mem_append_left _ (List.mem_append_right _
    (List.mem_map_of_mem (variants_subset c t hrel))))

theorem isName_function {f : Function} (hf : f ∈ TableModule.functions t) :
    ∀ n ∈ f.name :: f.signature.names, IsName n := by
  have hfunctions : ∀ n ∈ functionNames, IsName n := by decide +kernel
  have hfixed : ∀ n ∈ ["db", "rows", "include_deleted", "changes"], IsName n := by decide +kernel
  rw [List.forall_mem_cons]
  refine ⟨hfunctions _ (names_functions t (List.mem_map_of_mem hf)), fun n hn => ?_⟩
  exact (List.mem_append.mp (parameters_subset hf hn)).elim (hfixed n) (isName_fields h ht n)

variable (hfound : List.Forall₂ (Found r.examine.tables) (c.variants t) xs)

include hfound

theorem isName_class {k : RecordClass} (hk : k ∈ TableModule.classes t xs) : IsName k.name := by
  have hname := List.mem_map_of_mem (f := (·.name)) hk
  rw [names_classes, relationships_of_found hfound] at hname
  obtain ⟨e, he, heq⟩ := List.mem_map.mp hname
  exact heq ▸ (isName_record h ht).append (isNameRest_endings (isName_relations h ht) e he)

theorem isName_method {k : RecordClass} (hk : k ∈ TableModule.classes t xs) {f : Function}
    (hf : f ∈ k.methods) : ∀ n ∈ f.name :: f.signature.names, IsName n := by
  have hmethods : ∀ n ∈ ["from_row", "to_base", "from_base"], IsName n := by decide +kernel
  have hfixed : ∀ n ∈ ["cls", "self", "row", "base", "relations"], IsName n := by decide +kernel
  obtain ⟨hname, hsub⟩ := methods_subset hk hf
  rw [relationships_of_found hfound] at hsub
  rw [List.forall_mem_cons]
  refine ⟨hmethods _ hname, fun n hn => (List.mem_append.mp (hsub hn)).elim (hfixed n) fun hn => ?_⟩
  obtain ⟨rel, hrel, rfl⟩ := List.mem_map.mp hn
  exact isName_relations h ht rel hrel

theorem isName_members {k : RecordClass} (hk : k ∈ TableModule.classes t xs) :
    ∀ n ∈ k.base :: k.members.map (·.name), IsName n := by
  have hreserved : ∀ n ∈ Schema.reservedRecords, IsName n := by decide +kernel
  rw [List.forall_mem_cons]
  constructor
  · rcases mem_classes_sublist hk with hk | ⟨name, ys, -, rfl⟩
    · exact hreserved _ (members_sublist hk).2
    · exact isName_record h ht
  · rcases members_cases ht hfound (classes_linkedModule c t xs ▸ hk) with
      ⟨hsub, -⟩ | ⟨-, rels, hrels, heq⟩
    · exact fun n hn => isName_fields h ht n (hsub.subset hn)
    · rw [heq, List.forall_mem_map]
      exact fun rel hrel => isName_relations h ht rel (hrels.subset hrel)

theorem isName_sibling {s : Code.Sibling} (hs : s ∈ (linkedModule c t xs).siblings) :
    ∀ n ∈ [s.module, s.alias_], IsName n := by
  rw [siblings_linkedModule] at hs
  obtain ⟨target, htarget, rfl⟩ := List.mem_map.mp hs
  obtain ⟨-, rel, hrel, rfl⟩ := mem_relatedTables.mp htarget
  rw [relationships_of_found hfound] at hrel
  obtain ⟨u, hu, heq⟩ := Registry.exists_table
    (Registry.target_mem_accepted ht (variants_subset c t hrel))
  simp only [List.forall_mem_cons, ← heq]
  exact ⟨isName_table h hu, isName_alias (isName_table h hu), by simp⟩

theorem isName_identifiers : ∀ n ∈ (linkedModule c t xs).identifiers, IsName n := by
  have hconstants : ∀ n ∈ constantNames, IsName n := by decide +kernel
  rw [Module.identifiers, Module.callables, classes_linkedModule, functions_linkedModule,
    names_linkedModule]
  simp only [List.forall_mem_append, List.forall_mem_flatMap, List.forall_mem_map]
  refine ⟨⟨⟨⟨?_, ?_, ?_⟩, ?_⟩, ?_, ?_⟩, ?_⟩
  · exact fun a ha => hconstants _ ((names_constants t).subset (List.mem_map_of_mem ha))
  · exact fun k hk => isName_class h ht hfound hk
  · exact fun f hf => (List.forall_mem_cons.mp (isName_function h ht hf)).1
  · exact fun k hk => isName_members h ht hfound hk
  · exact fun f hf => isName_function h ht hf
  · exact fun k hk f hf => isName_method h ht hfound hk hf
  · exact fun s hs => isName_sibling h ht hfound hs

end

theorem tokens_recordReference {u : Table} (name : IsName u.name) (record : IsName u.recordName)
    (t : Table) : tokens (t.recordReference u) =
      if u.name = t.name then [u.recordName]
      else [Code.moduleAlias u.name, ".", u.recordName] := by
  unfold Table.recordReference
  split
  · next hown => rw [if_pos (beq_iff_eq.mp hown), record.tokens]
  · next hother =>
      rw [if_neg (mt beq_iff_eq.mpr hother)]
      simp +decide only [toString, tokens_append_begins, tokens_append_ends, endsApart_append,
        (isName_alias name).tokens, record.tokens]
      rfl

/-- The names of accepted tables are plain and single tokens in the package that is made of them: in the
paths of its files, in the statements, and in the modules of the tables. -/
structure PlainPackage (r : Registry) (c : Config) : Prop where
  names : ∀ t ∈ r.examine.tables, ∀ n ∈ t.names, IsName n ∧ SingleToken n
  paths : ∃ files, renderFiles c r.examine.tables = .ok files ∧ ∀ f ∈ files,
    (∃ t ∈ r.examine.tables, f.table = some t.name ∧ tokens f.path = [t.name, ".", "py"]) ∨
      f.path = registryPath ∨ f.path = packagePath
  statements : ∀ t ∈ r.examine.tables, t.StatementTokens
  modules : ∀ t ∈ r.examine.tables, ∃ xs,
    tableModule c t r.examine.tables = .ok (linkedModule c t xs) ∧
      (linkedModule c t xs).Tokens c.style ∧
      ∀ x ∈ xs, tokens (t.recordReference x.target) =
        if x.target.name = t.name then [x.target.recordName]
        else [Code.moduleAlias x.target.name, ".", x.target.recordName]

theorem tokens_tablePath {name : String} (h : IsName name) :
    tokens (tablePath name) = [name, ".", "py"] := by
  rw [tablePath, tokens_append_begins _ (by decide), h.tokens]
  rfl

theorem paths_plain (h : r.Unbroken) (c : Config) :
    ∃ files, renderFiles c r.examine.tables = .ok files ∧ ∀ f ∈ files,
      (∃ t ∈ r.examine.tables, f.table = some t.name ∧ tokens f.path = [t.name, ".", "py"]) ∨
        f.path = registryPath ∨ f.path = packagePath := by
  obtain ⟨modules, hfiles, hall⟩ := renderFiles_ok fun t => known_targets (r := r) (c := c) (t := t)
  refine ⟨_, hfiles, List.forall_mem_append.mpr ⟨fun f hf => ?_, fun f hf => .inr ?_⟩⟩
  · obtain ⟨t, ht, variants, -, -, rfl⟩ := exists_left_of_paired hall hf
    exact .inl ⟨t, ht, rfl, tokens_tablePath (isName_table h ht)⟩
  · rcases List.mem_append.mp hf with hf | hf
    · split at hf
      · exact .inl (List.mem_singleton.mp hf ▸ rfl)
      · cases hf
    · exact .inr (List.mem_singleton.mp hf ▸ rfl)

theorem plainPackage (h : r.Unbroken) (c : Config) : PlainPackage r c where
  names := fun t ht n hn => ⟨h.names ht n hn, (h.names ht n hn).singleToken⟩
  paths := paths_plain h c
  statements := fun t ht => Table.statementTokens (isName_table h ht) (isName_fields h ht)
  modules := by
    intro t ht
    obtain ⟨xs, hmodule, hfound⟩ := tableModule_ok (c := c) ht
    refine ⟨xs, hmodule, Module.tokens_of_names (isName_identifiers h ht hfound) _, fun x hx => ?_⟩
    obtain ⟨rel, -, -, hmem, -⟩ := exists_left_of_paired hfound hx
    exact tokens_recordReference (isName_table h hmem) (isName_record h hmem) t

end

/-- Every name of an accepted table is a plain name, or a plain name and one line break; those that emitted
source has as names are no keywords. All are plain exactly if no name that is given for an accepted table
holds a line break, and then each is one token wherever it is put: in paths, statements and modules. -/
theorem accepted_names_are_tokens (r : Registry) (c : Config) :
    (∀ t ∈ r.examine.tables,
      (∀ n ∈ t.names, IsName n ∨ ∃ name, IsName name ∧ n = name ++ "\n") ∧
        ∀ n ∈ t.sourceNames, n ∉ Code.keywords) ∧
      ((∀ t ∈ r.examine.tables, ∀ n ∈ t.names, IsName n) ↔ r.Unbroken) ∧
      (r.Unbroken → PlainPackage r c) := by
  refine ⟨fun t ht => ⟨fun n hn => ?_, Registry.notMem_keywords ht⟩, Registry.unbroken_iff,
    fun h => plainPackage h c⟩
  exact Text.isIdentifier_iff.mp (Registry.isIdentifier_names ht n hn)

theorem accepted_names_are_tokens_blog :
    (∀ n ∈ posts.names, SingleToken n) ∧
      tokens posts.insertSql =
        ["INSERT", "INTO", "posts", "(", "user_id", ")", "VALUES", "(", "$", "1", ")", "RETURNING", "*"] ∧
      ∃ m, tableModule {} posts blog.examine.tables = .ok m ∧ ∀ n ∈ m.identifiers, IsName n := by
  have haccepted : posts ∈ blog.examine.tables := by decide +kernel
  have hunbroken : blog.Unbroken := by
    unfold Registry.Unbroken
    decide +kernel
  obtain ⟨-, -, hplain⟩ := accepted_names_are_tokens blog {}
  have hpackage := hplain hunbroken
  have hstatements := hpackage.statements posts haccepted
  obtain ⟨xs, hmodule, htokens, -⟩ := hpackage.modules posts haccepted
  refine ⟨fun n hn => (hpackage.names posts haccepted n hn).2, ?_, _, hmodule, htokens.identifiers⟩
  rw [hstatements.insert, hstatements.insertHead]
  decide +kernel

def brokenPosts : Table :=
  { name := "posts", fields := [keyField, { name := "title\n", type := ⟨.text, false⟩ }] }

def broken : Registry where
  entries := [
    { table := "posts", fragments := [{ table := "posts", fields := brokenPosts.fields }] }]
  distinct := by decide

/-- An accepted table with a name that is not plain, and falls apart where it is put. -/
theorem broken_name_accepted :
    brokenPosts ∈ broken.examine.tables ∧ "title\n" ∈ brokenPosts.names ∧ ¬ IsName "title\n" ∧
      ¬ SingleToken "title\n" ∧ tokens brokenPosts.insertSql =
        ["INSERT", "INTO", "posts", "(", "title", "\n", ")", "VALUES", "(", "$", "1", ")",
          "RETURNING", "*"] := by
  refine ⟨by decide +kernel, by decide +kernel, by decide, fun hsingle => ?_, by decide +kernel⟩
  have happart := hsingle " " " " (by decide) (by decide)
  exact absurd happart (by decide)

end Generation

end TableLoom
