import TableLoom.Proofs.Check.Entries
import TableLoom.Proofs.Generation.Constants
import TableLoom.Proofs.Generation.Tokens
import TableLoom.Proofs.Statement.Insertion

/-!
One row inserted in two ways: by the statement that is kept for it, and as the only one of several. Both
have the same text and the same parameters, because a column has an entry among the defaults exactly if
its cell falls back to one. The statement that updates a row that is there is the same insertion, with what
is done on a conflict before what it returns.
-/

namespace TableLoom

open Statement (Row cellText boundValue)

namespace Schema.Table

variable {t : Table}

/-- Defaults as a mapping from columns to what stands in for them. -/
def defaultRow (entries : List (String × String)) : Row :=
  Value.keyed (entries.map fun e => (e.1, .text e.2))

theorem keys_defaultRow (entries : List (String × String)) :
    (defaultRow entries).map Prod.fst = (entries.map Prod.fst).map .text := by
  simp [defaultRow, Value.keyed]

/-- A column of the table has the default of its field, and none if the field has none. -/
theorem find?_defaultRow (distinct : t.fieldNames.Nodup) {f : Field} (hf : f ∈ t.inputFields) :
    Value.find? f.name (defaultRow t.defaultEntries) = f.insertDefault?.map .text := by
  have hkeys : ((defaultRow t.defaultEntries).map Prod.fst).Nodup := by
    rw [keys_defaultRow]
    exact (nodup_keys distinct).map fun _ _ => Value.text.inj
  have hnames : (t.inputFields.map (·.name)).Nodup := distinct.sublist (List.filter_sublist.map _)
  refine Option.ext fun v => ?_
  rw [Value.find?_eq_some_iff hkeys, Option.map_eq_some_iff]
  constructor
  · intro hmem
    simp only [defaultRow, Value.keyed, defaultEntries, List.map_map, List.mem_map, List.mem_filterMap,
      Function.comp_apply, Prod.mk.injEq, Value.text.injEq, Option.map_eq_some_iff] at hmem
    obtain ⟨e, ⟨g, hg, d, hd, rfl⟩, hname, rfl⟩ := hmem
    obtain rfl : g = f := List.inj_on_of_nodup_map hnames hg hf hname
    exact ⟨d, hd, rfl⟩
  · rintro ⟨d, hd, rfl⟩
    have hentry : (f.name, d) ∈ t.defaultEntries := List.mem_filterMap.mpr ⟨f, hf, by rw [hd]; rfl⟩
    simpa [defaultRow, Value.keyed] using hentry

theorem cellText_defaultRow (distinct : t.fieldNames.Nodup) {f : Field} (hf : f ∈ t.inputFields) (n : Nat) :
    cellText (defaultRow t.defaultEntries) n f.name = insertCell n f := by
  rw [cellText, find?_defaultRow distinct hf, insertCell]
  cases f.insertDefault? <;> rfl

theorem insertCells_eq (first : Nat) (fs : List Field) :
    insertCells first fs = fs.mapIdx fun j f => insertCell (first + j) f := by
  induction fs generalizing first with
  | nil => rfl
  | cons f rest ih =>
      rw [insertCells, ih, List.mapIdx_cons]
      simp only [Nat.add_zero, Nat.add_assoc, Nat.add_comm 1]

theorem tupleText_defaultRow (distinct : t.fieldNames.Nodup) :
    Statement.tupleText (t.inputFields.map (·.name)) (defaultRow t.defaultEntries) 0 =
      "(" ++ Text.join ", " (insertCells 1 t.inputFields) ++ ")" := by
  have hcells : ((t.inputFields.map (·.name)).mapIdx fun j c =>
      cellText (defaultRow t.defaultEntries) (0 * (t.inputFields.map (·.name)).length + j + 1) c) =
      insertCells 1 t.inputFields := by
    rw [insertCells_eq]
    refine List.ext_getElem (by simp) fun j hj hj' => ?_
    simp only [List.getElem_mapIdx, List.getElem_map]
    rw [cellText_defaultRow distinct (List.getElem_mem _)]
    congr 1
    omega
  rw [Statement.tupleText, hcells]

/-- The statement kept for one row is the one for several rows where there is just one. -/
theorem insertText_singleton (distinct : t.fieldNames.Nodup) (some_ : t.inputFields ≠ []) (row : Row) :
    Statement.insertText t.name (t.inputFields.map (·.name)) [row] (defaultRow t.defaultEntries) =
      t.insertSql := by
  have hhead : t.insertHead = s!"INSERT INTO {t.name} (" ++ Text.join ", " (t.inputFields.map (·.name))
      ++ ") VALUES (" ++ Text.join ", " (insertCells 1 t.inputFields) ++ ")" := by
    unfold insertHead
    exact if_neg (by simpa using some_)
  delta Statement.insertText insertSql
  rw [hhead, List.mapIdx_cons, List.mapIdx_nil, tupleText_defaultRow distinct]
  apply String.toList_injective
  simp [Text.join, toString]

end Schema.Table

namespace Generation

open Code (Literal Function)
open Schema (Table Field)
open Text (IsName tokens)

variable {t : Table}

/-- What the module of the table sets a constant to. -/
def emitted (t : Table) (name : String) : Option Literal :=
  ((TableModule.constants t).find? (·.name == name)).map (·.value)

theorem emitted_eq_some_iff (distinct : t.fieldNames.Nodup) {name : String} {value : Literal} :
    emitted t name = some value ↔ ∃ d, (name, d) ∈ t.computed ∧ d.literal = value := by
  have hnames : (t.computed.map Prod.fst).Nodup :=
    (by decide : constantNames.Nodup).sublist (names_computed distinct)
  have hlookup : emitted t name = (t.computed.find? (·.1 == name)).map (·.2.literal) := by
    rw [emitted, Table.constants_eq distinct, List.find?_map, Option.map_map]
    rfl
  rw [hlookup, Option.map_eq_some_iff]
  constructor
  · rintro ⟨⟨n, d⟩, hfind, rfl⟩
    obtain rfl : n = name := by simpa using List.find?_some hfind
    exact ⟨d, List.mem_of_find?_eq_some hfind, rfl⟩
  · rintro ⟨d, hd, rfl⟩
    have hthere : (t.computed.find? (·.1 == name)).isSome :=
      List.find?_isSome.mpr ⟨(name, d), hd, beq_self_eq_true name⟩
    obtain ⟨e, hfind⟩ := Option.isSome_iff_exists.mp hthere
    obtain rfl : e = (name, d) := List.inj_on_of_nodup_map hnames (List.mem_of_find?_eq_some hfind) hd
      (by simpa using List.find?_some hfind)
    exact ⟨_, hfind, rfl⟩

/-- The names in a list, up to its closing bracket. -/
def readNames : List String → Option (List String)
  | ["]"] => some []
  | [name, "]"] => some [name]
  | name :: "," :: rest => (name :: ·) <$> readNames rest
  | _ => none

/-- The names in the list that a line of source sets the parameters to. -/
def listedNames (line : String) : Option (List String) :=
  match tokens line with
  | "params" :: ":" :: "List" :: "[" :: "Any" :: "]" :: "=" :: "[" :: rest => readNames rest
  | _ => none

/-- The parameters that a function lists on its first line, where it is given the values of a row by
their names. -/
def listedParams (f : Function) (row : Row) : Option (List Value) := do
  let line ← f.body.head?
  let names ← listedNames line.text
  names.mapM fun n => if n ∈ f.signature.named.map (·.name) then Value.find? n row else none

theorem readNames_commas (names : List String) (apart : ∀ n ∈ names, n ≠ "]") :
    readNames (Text.commas (names.map fun n => [n]) ++ ["]"]) = some names := by
  induction names with
  | nil => rfl
  | cons n rest ih =>
      cases rest with
      | nil => simp [Text.commas, readNames]
      | cons next rest =>
          have hmore := ih (List.forall_mem_cons.mp apart).2
          rw [List.map_cons, List.map_cons, Text.commas_cons_cons]
          rw [List.map_cons] at hmore
          rw [List.cons_append, List.nil_append, List.cons_append, List.cons_append, readNames, hmore]
          rfl

theorem listedNames_params {names : List String} (h : ∀ n ∈ names, IsName n) :
    listedNames ("params: List[Any] = [" ++ Text.join ", " names ++ "]") = some names := by
  have hnames := readNames_commas names fun n hn heq => by
    have hname := h n hn
    rw [heq] at hname
    exact absurd hname (by decide)
  have htokens : tokens ("params: List[Any] = [" ++ Text.join ", " names ++ "]") =
      ["params", ":", "List", "[", "Any", "]", "=", "["]
        ++ (Text.commas (names.map fun n => [n]) ++ ["]"]) := by
    rw [Text.tokens_append_begins _ (by decide), Text.tokens_append_ends (by decide),
      Text.tokens_names h, List.append_assoc]
    congr 1
  rw [listedNames, htokens]
  exact hnames

theorem named_insert (t : Table) :
    (TableModule.insert t).signature.named.map (·.name) = t.inputFields.map (·.name) := by
  simp [TableModule.insert, TableModule.writing]

theorem find?_eq_boundValue {row : Row} {column : String} (h : (Value.find? column row).isSome) :
    Value.find? column row = some (boundValue row column) := by
  obtain ⟨v, hv⟩ := Option.isSome_iff_exists.mp h
  rw [Statement.boundValue, hv]
  rfl

/-- The function that inserts one row passes on what the row gives for each column, in their order. -/
theorem listedParams_insert {row : Row} (names : ∀ f ∈ t.inputFields, IsName f.name)
    (given : ∀ f ∈ t.inputFields, (Value.find? f.name row).isSome) :
    listedParams (TableModule.insert t) row =
      some ((t.inputFields.map (·.name)).map (boundValue row)) := by
  have hlisted : listedNames ("params: List[Any] = [" ++ Text.join ", " (t.inputFields.map (·.name)) ++ "]") =
      some (t.inputFields.map (·.name)) := listedNames_params (List.forall_mem_map.mpr names)
  have hvalues : ((t.inputFields.map (·.name)).mapM fun n =>
      if n ∈ t.inputFields.map (·.name) then Value.find? n row else none) =
      some ((t.inputFields.map (·.name)).map (boundValue row)) := by
    refine mapM_eq_some fun n hn => ?_
    obtain ⟨f, hf, rfl⟩ := List.mem_map.mp hn
    rw [if_pos hn, find?_eq_boundValue (given f hf)]
  have hfirst : (TableModule.insert t).body.head? =
      some ⟨0, "params: List[Any] = [" ++ Text.join ", " (t.inputFields.map (·.name)) ++ "]"⟩ := rfl
  rw [listedParams, hfirst, named_insert]
  simp only [Option.bind_eq_bind, Option.bind_some, hlisted, hvalues]

theorem others_eq_nil_iff {columns : List String} {conflict : String} (distinct : columns.Nodup)
    (there : conflict ∈ columns) : columns.filter (· != conflict) = [] ↔ columns = [conflict] := by
  constructor
  · intro hnone
    have hsame : ∀ c ∈ columns, c = conflict := by
      simpa [List.filter_eq_nil_iff] using hnone
    refine List.perm_singleton.mp ((List.perm_ext_iff_of_nodup distinct (List.nodup_singleton _)).mpr ?_)
    exact fun c => ⟨fun hc => by rw [hsame c hc]; exact List.mem_singleton_self _,
      fun hc => List.mem_singleton.mp hc ▸ there⟩
  · rintro rfl
    simp

/-- Besides what is returned, the statement that updates a row that is there is the insertion and what is
set on a conflict: all other columns, or the conflicting one if it is alone. -/
theorem upsert_of_emitted (distinct : t.fieldNames.Nodup) {value : Literal}
    (h : emitted t "UPSERT_SQL" = some value) :
    ∃ (conflict : String) (assigned : List String), t.Distinguishes conflict ∧ value = .text (t.insertHead
        ++ s!" ON CONFLICT ({conflict}) DO UPDATE SET "
        ++ Text.join ", " (assigned.map fun c => s!"{c} = EXCLUDED.{c}") ++ " RETURNING *") ∧
      assigned.Nodup ∧ ∀ c, c ∈ assigned ↔
        c ∈ t.inputFields.map (·.name) ∧ (c ≠ conflict ∨ t.inputFields.map (·.name) = [conflict]) := by
  have hnames : (t.inputFields.map (·.name)).Nodup := distinct.sublist (List.filter_sublist.map _)
  obtain ⟨d, hd, rfl⟩ := (emitted_eq_some_iff distinct).mp h
  have hupsert : ∃ s ∈ t.upsertSql?, d = .text s := by
    have hkey (key : String) : ("UPSERT_SQL", d) ∉ t.computedByKey key := by
      unfold Table.computedByKey
      split <;> simp
    simpa [Table.computed, hkey, eq_comm] using hd
  obtain ⟨s, hs, rfl⟩ := hupsert
  obtain ⟨conflict, hconflict, rfl⟩ := Option.map_eq_some_iff.mp hs
  extract_lets others assigned
  have hunique := Table.distinguishes_of_conflictColumn? hconflict
  have hmem : conflict ∈ t.inputFields.map (·.name) := by
    obtain ⟨f, hf, rfl, -⟩ := hunique
    exact List.mem_map_of_mem hf
  have hothers : others = [] ↔ t.inputFields.map (·.name) = [conflict] := others_eq_nil_iff hnames hmem
  refine ⟨conflict, assigned, hunique, rfl, ?_, fun c => ?_⟩
  · simp only [assigned]
    split
    · exact List.nodup_singleton _
    · exact hnames.filter _
  · simp only [assigned]
    split
    · next hnone =>
        rw [hothers.mp (List.isEmpty_iff.mp hnone)]
        simp
    · next hsome =>
        have halone : ¬ t.inputFields.map (·.name) = [conflict] :=
          fun h => hsome (List.isEmpty_iff.mpr (hothers.mpr h))
        simp [others, halone]

/-- One row that gives a value for each written column is inserted by the emitted statement for it with what
the emitted function lists; inserted as the only one of several, from the emitted names and defaults, it has
the same text and parameters. Where a statement is emitted that updates the row that is there, it is this
one with the conflict before what it returns: on a unique column that is written, and setting each of the
others once, or that column if there are none. -/
theorem single_row_agrees (t : Table) (distinct : t.fieldNames.Nodup) (some_ : t.inputFields ≠ [])
    (row : Row) (given : ∀ f ∈ t.inputFields, (Value.find? f.name row).isSome = true) :
    ∃ table columns defaults sql params,
      emitted t "TABLE_NAME" = some (.text table) ∧
      emitted t "INPUT_COLUMNS" = some (.tuple columns) ∧
      emitted t "INSERT_DEFAULTS" = some (.mapping defaults) ∧
      emitted t "INSERT_SQL" = some (.text sql) ∧
      Statement.insertMany table columns [row] (Table.defaultRow defaults) = .ok ⟨sql, params⟩ ∧
      (∃ f ∈ TableModule.functions t, f.name = "insert" ∧
        f.signature.named.map (·.name) = columns ∧ columns.map (Value.find? · row) = params.map some ∧
        (f.body.head?.map (·.text)) = some ("params: List[Any] = [" ++ Text.join ", " columns ++ "]") ∧
        ((∀ c ∈ columns, IsName c) → listedParams f row = some params)) ∧
      ∀ value, emitted t "UPSERT_SQL" = some value →
        ∃ (head conflict : String) (assigned : List String), sql = head ++ " RETURNING *" ∧
          value = .text (head ++ s!" ON CONFLICT ({conflict}) DO UPDATE SET "
            ++ Text.join ", " (assigned.map fun c => s!"{c} = EXCLUDED.{c}") ++ " RETURNING *") ∧
          t.Distinguishes conflict ∧ assigned.Nodup ∧
          ∀ c, c ∈ assigned ↔ c ∈ columns ∧ (c ≠ conflict ∨ columns = [conflict]) := by
  have hemitted (name : String) (d : Code.Datum) (h : (name, d) ∈ t.computed) :
      emitted t name = some d.literal := (emitted_eq_some_iff distinct).mpr ⟨d, h, rfl⟩
  refine ⟨t.name, t.inputFields.map (·.name), t.defaultEntries, t.insertSql,
    (t.inputFields.map (·.name)).map (boundValue row),
    hemitted "TABLE_NAME" (.text _) (by simp [Table.computed]),
    hemitted "INPUT_COLUMNS" (.tuple _) (by simp [Table.computed]),
    hemitted "INSERT_DEFAULTS" (.mapping _) (by simp [Table.computed]),
    hemitted "INSERT_SQL" (.text _) (by simp [Table.computed]), ?_, ?_, fun value hvalue => ?_⟩
  · have hcomplete : ∀ r ∈ [row], ∀ c ∈ t.inputFields.map (·.name),
        Statement.lacks (Table.defaultRow t.defaultEntries) r c = false := by
      rw [List.forall_mem_singleton, List.forall_mem_map]
      intro f hf
      rw [Statement.lacks, find?_eq_boundValue (given f hf)]
      rfl
    rw [Statement.insertMany_of_complete (List.cons_ne_nil _ _) hcomplete,
      Table.insertText_singleton distinct some_]
    simp [Statement.boundValues]
  · refine ⟨TableModule.insert t, by simp [TableModule.functions], rfl, named_insert t, ?_, rfl,
      fun names => listedParams_insert (List.forall_mem_map.mp names) given⟩
    refine (List.map_congr_left fun n hn => ?_).trans List.map_map.symm
    obtain ⟨f, hf, rfl⟩ := List.mem_map.mp hn
    exact find?_eq_boundValue (given f hf)
  · obtain ⟨conflict, assigned, hunique, htext, hassigned⟩ := upsert_of_emitted distinct hvalue
    exact ⟨t.insertHead, conflict, assigned, rfl, htext, hunique, hassigned⟩

def subscribers : Table :=
  { name := "subscribers"
    fields := [keyField, { name := "email", type := ⟨.text, false⟩, unique := true },
      { name := "name", type := ⟨.text, false⟩, default := some "'nobody'", inputMode := .optional }] }

/-- A row that names its columns in another order. -/
def subscribed : Row :=
  [(.text "name", .text "Ann"), (.text "email", .text "ann@example.org")]

theorem single_row_agrees_subscribed :
    ∃ table columns defaults params,
      Statement.insertMany table columns [subscribed] (Table.defaultRow defaults) = .ok
        ⟨"INSERT INTO subscribers (email, name) VALUES ($1, COALESCE($2, 'nobody')) RETURNING *", params⟩ ∧
      (∃ f ∈ TableModule.functions subscribers, listedParams f subscribed = some params) ∧
      ∃ (head conflict : String) (assigned : List String), subscribers.Distinguishes conflict ∧
        "INSERT INTO subscribers (email, name) VALUES ($1, COALESCE($2, 'nobody')) RETURNING *" =
          head ++ " RETURNING *" ∧
        "INSERT INTO subscribers (email, name) VALUES ($1, COALESCE($2, 'nobody')) ON CONFLICT (email) "
            ++ "DO UPDATE SET name = EXCLUDED.name RETURNING *" =
          head ++ s!" ON CONFLICT ({conflict}) DO UPDATE SET "
            ++ Text.join ", " (assigned.map fun c => s!"{c} = EXCLUDED.{c}") ++ " RETURNING *" := by
  obtain ⟨table, columns, defaults, sql, params, -, hcolumns, -, hsql, hmany, ⟨f, hf, -, -, -, -, hlisted⟩,
    hupsert⟩ := single_row_agrees subscribers (by decide) (by decide) subscribed (by decide)
  have hinputs : emitted subscribers "INPUT_COLUMNS" = some (.tuple ["email", "name"]) := by decide +kernel
  have hinsert : emitted subscribers "INSERT_SQL" = some (.text
      "INSERT INTO subscribers (email, name) VALUES ($1, COALESCE($2, 'nobody')) RETURNING *") := by
    decide +kernel
  obtain rfl := Literal.tuple.inj (Option.some.inj (hcolumns.symm.trans hinputs))
  obtain rfl := Literal.text.inj (Option.some.inj (hsql.symm.trans hinsert))
  obtain ⟨head, conflict, assigned, hhead, htext, hunique, -⟩ := hupsert (.text
    ("INSERT INTO subscribers (email, name) VALUES ($1, COALESCE($2, 'nobody')) ON CONFLICT (email) "
      ++ "DO UPDATE SET name = EXCLUDED.name RETURNING *")) (by decide +kernel)
  exact ⟨table, _, defaults, params, hmany, ⟨f, hf, hlisted (by decide)⟩, head, conflict, assigned,
    hunique, hhead, Literal.text.inj htext⟩

end Generation

end TableLoom
