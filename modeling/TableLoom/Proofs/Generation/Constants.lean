import TableLoom.Proofs.Code.Reading
import TableLoom.Proofs.Generation.ClassNames

/-!
The constants of a table's module read as source. They stand for the texts, tuples and the mapping that
were computed for the table, unless a name or a default holds a character that no literal on one line can
hold; then they are not read at all.
-/

namespace TableLoom

open Code (Datum Plain constantLine readAssignment)

theorem Text.breaksLiteral_of_isAsciiPrinted {c : Char} (h : isAsciiPrinted c = true) :
    Code.breaksLiteral c = false := by
  rw [isAsciiPrinted, Bool.and_eq_true, decide_eq_true_eq, decide_eq_true_eq] at h
  exact Code.breaksLiteral_of_printable h.1 h.2

namespace Schema.Table

variable {t : Table}

def defaultEntries (t : Table) : List (String × String) :=
  t.inputFields.filterMap fun f => f.insertDefault?.map (f.name, ·)

def computedByKey (t : Table) (key : String) : List (String × Datum) :=
  (if t.hasSoftDelete then
    [("FIND_BY_ID_SQL", .text (t.findLiveSql key)),
      ("FIND_BY_ID_WITH_DELETED_SQL", .text (t.findSql key)),
      ("SOFT_DELETE_SQL", .text (t.softDeleteSql key))]
  else [("FIND_BY_ID_SQL", .text (t.findSql key))])
    ++ [("DELETE_SQL", .text (t.deleteSql key))]

/-- What is computed for the constants of the table, each by its name. -/
def computed (t : Table) : List (String × Datum) :=
  [("TABLE_NAME", .text t.name), ("SELECT_ALL_SQL", .text t.selectAllSql),
    ("COLUMNS", .tuple t.fieldNames), ("INPUT_COLUMNS", .tuple (t.inputFields.map (·.name))),
    ("INSERT_DEFAULTS", .mapping t.defaultEntries), ("INSERT_SQL", .text t.insertSql)]
    ++ (t.keyField?.toList.flatMap fun f => t.computedByKey f.name)
    ++ (t.upsertSql?.toList.map fun s => ("UPSERT_SQL", .text s))
    ++ [("TRUNCATE_SQL", .text t.truncateSql), ("TABLE_EXISTS_SQL", .text tableExistsSql)]

theorem keys_defaultEntries (t : Table) :
    (t.defaultEntries.map Prod.fst).Sublist (t.inputFields.map (·.name)) := by
  unfold defaultEntries
  induction t.inputFields with
  | nil => exact .slnil
  | cons f rest ih =>
      rw [List.filterMap_cons, List.map_cons]
      cases f.insertDefault? with
      | none => exact ih.cons _
      | some d => exact ih.cons_cons _

theorem nodup_keys (distinct : t.fieldNames.Nodup) : (t.defaultEntries.map Prod.fst).Nodup :=
  distinct.sublist (t.keys_defaultEntries.trans (List.filter_sublist.map _))

theorem insertDefaults_eq (distinct : t.fieldNames.Nodup) :
    Generation.TableModule.insertDefaults t = t.defaultEntries := by
  rw [← Code.mappingOf_of_nodup (nodup_keys distinct), Code.mappingOf, defaultEntries,
    List.foldl_filterMap, Generation.TableModule.insertDefaults]
  congr 1
  funext entries f
  cases f.insertDefault? <;> rfl

/-- What is computed are texts of characters that are at hand, two tuples and a mapping. -/
theorem forall_computed {p : Datum → Prop} (text : ∀ s, Text.Each t.Supplies s → p (.text s))
    (columns : p (.tuple t.fieldNames)) (inputs : p (.tuple (t.inputFields.map (·.name))))
    (defaults : p (.mapping t.defaultEntries)) : ∀ e ∈ t.computed, p e.2 := by
  have hkey (key : Field) (hkey : key ∈ t.fields) : ∀ e ∈ t.computedByKey key.name, p e.2 := by
    obtain ⟨hfind, hlive, hsoft, hdelete⟩ := each_keyStatement hkey
    unfold computedByKey
    rw [List.forall_mem_append, List.forall_mem_singleton]
    refine ⟨?_, text _ hdelete⟩
    split
    · simp only [List.forall_mem_cons]
      exact ⟨text _ hlive, text _ hfind, text _ hsoft, by simp⟩
    · rw [List.forall_mem_singleton]
      exact text _ hfind
  -- All but the two tuples and the mapping are statements or names.
  simp only [computed, List.forall_mem_append, List.forall_mem_cons, List.forall_mem_map,
    List.forall_mem_flatMap, Option.mem_toList]
  refine ⟨⟨⟨⟨text _ each_name, text _ each_selectAllSql, columns, inputs, defaults,
    text _ each_insertSql, by simp⟩, fun key hmem => hkey key (mem_of_keyField? hmem)⟩,
    fun s hs => text s (each_upsertSql hs)⟩, text _ each_truncateSql, ?_, by simp⟩
  exact text _ (each_literal (by decide))

theorem distinct_computed (distinct : t.fieldNames.Nodup) : ∀ e ∈ t.computed, e.2.Distinct :=
  forall_computed (fun _ _ => trivial) trivial trivial (nodup_keys distinct)

theorem constants_eq (distinct : t.fieldNames.Nodup) : Generation.TableModule.constants t =
    t.computed.map fun e => ⟨e.1, some e.2.typeName, e.2.literal⟩ := by
  have hkey (key : String) : Generation.TableModule.keyConstants t key =
      (t.computedByKey key).map fun e => ⟨e.1, some e.2.typeName, e.2.literal⟩ := by
    unfold Generation.TableModule.keyConstants computedByKey
    split <;> rfl
  simp only [Generation.TableModule.constants, insertDefaults_eq distinct, computed, List.map_append,
    List.map_flatMap, List.map_map, hkey]
  rfl

theorem plain_supplied (plain : ∀ s ∈ t.givenTexts, Plain s) {s : String}
    (hs : Text.Each t.Supplies s) : Plain s := by
  intro c hc
  rcases hs c hc with hprinted | ⟨given, hgiven, hc⟩
  · exact Text.breaksLiteral_of_isAsciiPrinted hprinted
  · exact plain given hgiven c hc

theorem each_computed : ∀ e ∈ t.computed, ∀ s ∈ e.2.texts, Text.Each t.Supplies s := by
  refine forall_computed (p := fun d => ∀ s ∈ d.texts, Text.Each t.Supplies s)
    (fun s hs => List.forall_mem_singleton.mpr hs) ?_ ?_ ?_
  · exact List.forall_mem_map.mpr fun f hf => each_field hf
  · exact List.forall_mem_map.mpr fun f hf => each_inputField hf
  · intro s hs
    obtain ⟨e, he, hs⟩ := List.mem_flatMap.mp hs
    obtain ⟨f, hf, hdefault⟩ := List.mem_filterMap.mp he
    obtain ⟨d, hd, rfl⟩ := Option.map_eq_some_iff.mp hdefault
    simp only [List.mem_cons, List.not_mem_nil, or_false] at hs
    rcases hs with rfl | rfl
    · exact each_inputField hf
    · exact each_insertDefault hf hd

theorem plain_computed_iff :
    (∀ e ∈ t.computed, ∀ s ∈ e.2.texts, Plain s) ↔ ∀ s ∈ t.givenTexts, Plain s := by
  constructor
  · intro h
    have hname := h ("TABLE_NAME", .text t.name) (by simp [computed])
    have hfields := h ("COLUMNS", .tuple t.fieldNames) (by simp [computed])
    have hdefaults := h ("INSERT_DEFAULTS", .mapping t.defaultEntries) (by simp [computed])
    simp only [givenTexts, List.cons_append, List.forall_mem_cons, List.forall_mem_append]
    refine ⟨hname _ (List.mem_singleton_self _), hfields, fun d hd => ?_⟩
    obtain ⟨f, hf, hd⟩ := List.mem_filterMap.mp hd
    refine hdefaults d (List.mem_flatMap.mpr ⟨(f.name, d), ?_, by simp⟩)
    exact List.mem_filterMap.mpr ⟨f, hf, by rw [hd]; rfl⟩
  · exact fun h e he s hs => plain_supplied h (each_computed e he s hs)

end Schema.Table

namespace Generation

open Code (Item Line)
open Schema (Registry Table)

/-- The lines of the constants in the module of the table. -/
def constantLines (c : Config) (t : Table) : List String :=
  ((Item.constants (TableModule.constants t)).lines c.style).map (Line.render c.style)

theorem constantLines_eq (c : Config) {t : Table} (distinct : t.fieldNames.Nodup) :
    constantLines c t = t.computed.map constantLine := by
  have hline (e : String × Datum) :
      (Code.Assignment.lines ⟨e.1, some e.2.typeName, e.2.literal⟩).map (Line.render c.style) =
        [constantLine e] := by
    obtain ⟨name, d⟩ := e
    cases d <;> simp [Code.Assignment.lines, Datum.literal, Code.Literal.lines, Line.render,
      Text.repeated, constantLine, Datum.source]
  rw [constantLines, Item.lines, Table.constants_eq distinct, List.flatMap_map, List.map_flatMap,
    List.map_eq_flatMap]
  simp only [hline]

theorem names_computed {t : Table} (distinct : t.fieldNames.Nodup) :
    (t.computed.map Prod.fst).Sublist constantNames := by
  have hnames := names_constants t
  rwa [Table.constants_eq distinct, List.map_map] at hnames

theorem isName_computed {t : Table} (distinct : t.fieldNames.Nodup) :
    ∀ e ∈ t.computed, Text.IsName e.1 := by
  have hall : ∀ n ∈ constantNames, Text.IsName n := by decide +kernel
  exact fun e he => hall _ ((names_computed distinct).subset (List.mem_map_of_mem he))

theorem lines_linkedModule (c : Config) (t : Table) (xs : List Resolved) :
    ∃ before after, before ≠ [] ∧ after ≠ [] ∧
      (linkedModule c t xs).lines c.style = before ++ constantLines c t ++ after := by
  refine ⟨Code.titleLines (linkedModule c t xs).title ++ ["from __future__ import annotations"]
      ++ (linkedModule c t xs).imports.flatMap (fun block => ["", block]) ++ ["", ""],
    (linkedModule c t xs).items.tail.flatMap (fun i => List.replicate i.distance ""
      ++ (i.lines c.style).map (Line.render c.style))
      ++ Code.Module.siblingLines (linkedModule c t xs).siblings,
    List.cons_ne_nil _ _, List.cons_ne_nil _ _, ?_⟩
  simp only [Code.Module.lines, items_linkedModule, List.flatMap_cons, List.tail_cons, List.append_assoc]
  rfl

/-- The lines of the constants stand one after the other among the lines of the module. -/
theorem constantLines_infix (c : Config) {t : Table} (distinct : t.fieldNames.Nodup)
    (plain : ∀ s ∈ t.givenTexts, Plain s) (xs : List Resolved) :
    constantLines c t <:+: Text.split '\n' ((linkedModule c t xs).text c.style) := by
  have hlines : ∀ l ∈ constantLines c t, '\n' ∉ l.toList ∧ l ≠ "" := by
    rw [constantLines_eq c distinct, List.forall_mem_map]
    intro e he
    have hplain := Code.plain_constantLine (isName_computed distinct e he)
      (Table.distinct_computed distinct e he) (Table.plain_computed_iff.mpr plain e he)
    refine ⟨fun hbreak => absurd (hplain _ hbreak) (by decide), fun hempty => ?_⟩
    simp only [constantLine, String.append_eq_empty_iff] at hempty
    exact absurd hempty.1.1.1.2 (by decide)
  obtain ⟨before, after, hbefore, hafter, hsame⟩ := lines_linkedModule c t xs
  rw [Code.Module.text, hsame]
  refine Code.infix_split_endLine ⟨hbefore, ?_, hafter⟩ (fun l hl => (hlines l hl).1)
    fun l hl => (hlines l hl).2
  rw [constantLines_eq c distinct]
  exact List.cons_ne_nil _ _

/-- What is emitted as a quoted text is one literal on one line that stands for that text, unless a
character breaks it; then it is not read. The lines of an accepted table's constants stand for what is
computed for the table exactly if no name of a field, and neither the table's name nor a default that it
inserts, holds such a character; else not all of them are read. -/
theorem constants_read_back (r : Registry) (c : Config) :
    (∀ s, Code.pieces .between (Text.sourceQuoted s).toList =
      if Plain s then some [.text s] else none) ∧
    ∀ t ∈ r.examine.tables,
      (t.computed.map Prod.fst).Nodup ∧
      (constantLines c t).mapM readAssignment =
        (if ∀ s ∈ t.givenTexts, Plain s then some t.computed else none) ∧
      ∃ m, tableModule c t r.examine.tables = .ok m ∧ ((∀ s ∈ t.givenTexts, Plain s) →
        constantLines c t <:+: Text.split '\n' (m.text c.style)) := by
  refine ⟨Code.pieces_sourceQuoted, fun t ht => ?_⟩
  have hdistinct : t.fieldNames.Nodup := (List.nodup_append'.mp (Registry.nodup_members ht)).1
  have hnames : constantNames.Nodup := by decide
  obtain ⟨xs, hmodule, -⟩ := tableModule_ok (c := c) ht
  refine ⟨hnames.sublist (names_computed hdistinct), ?_, _, hmodule,
    fun plain => constantLines_infix c hdistinct plain xs⟩
  rw [constantLines_eq c hdistinct, Code.read_constantLines (isName_computed hdistinct)
    (Table.distinct_computed hdistinct)]
  simp only [Table.plain_computed_iff]

def users : Table :=
  { name := "users"
    fields := [keyField, { name := "name", type := ⟨.text, false⟩, default := some "'nobody'"
                           inputMode := .optional }]
    relationships := [{ column := "id", references := { table := "posts" }
                        cardinality := .oneToMany }] }

theorem constants_read_back_blog :
    (constantLines {} users).mapM readAssignment = some users.computed ∧
      ("INSERT_DEFAULTS", .mapping [("name", "'nobody'")]) ∈ users.computed ∧
      ("INSERT_SQL", .text "INSERT INTO users (name) VALUES (COALESCE($1, 'nobody')) RETURNING *") ∈
        users.computed ∧
      ∃ m, tableModule {} users blog.examine.tables = .ok m ∧
        constantLines {} users <:+: Text.split '\n' (m.text (Config.style {})) := by
  have haccepted : users ∈ blog.examine.tables := by decide +kernel
  have hplain : ∀ s ∈ users.givenTexts, Plain s := by decide +kernel
  obtain ⟨-, hall⟩ := constants_read_back blog {}
  obtain ⟨-, hread, m, hmodule, hlines⟩ := hall users haccepted
  rw [if_pos hplain] at hread
  exact ⟨hread, by decide +kernel, by decide +kernel, m, hmodule, hlines hplain⟩

def letters : Table :=
  { name := "letters"
    fields := [keyField, { name := "body", type := ⟨.text, false⟩, default := some "'one\ntwo'"
                           inputMode := .optional }] }

def lettered : Registry where
  entries := [
    { table := "letters", fragments := [{ table := "letters", fields := letters.fields }] }]
  distinct := by decide

/-- A text of two lines is not read back, nor are the constants of an accepted table with such a default. -/
theorem broken_literal_emitted :
    Code.pieces .between (Text.sourceQuoted "one\ntwo").toList = none ∧
      letters ∈ lettered.examine.tables ∧ (constantLines {} letters).mapM readAssignment = none := by
  decide +kernel

end Generation

end TableLoom
