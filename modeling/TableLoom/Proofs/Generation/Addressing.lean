import Mathlib.Data.Set.Basic
import TableLoom.Proofs.Generation.SingleRow
import TableLoom.Proofs.Statement.Update

/-!
Statements for the row with a key. They demand a value of one column, the first of the key, however many
columns the key has; so they are for one row at most exactly if that column is the whole key.
-/

namespace TableLoom

namespace Statement

/-- What a condition demands of a row: a column that is equal to a bound value, or that is null. -/
inductive Demand where
  | equals (column : String) (slot : Nat)
  | absent (column : String)
  deriving DecidableEq

/-- The values of a row by its columns. -/
abbrev Values := String → Value

namespace Demand

def column : Demand → String
  | equals column _ => column
  | absent column => column

def text : Demand → String
  | equals column slot => s!"{column} = ${slot}"
  | absent column => s!"{column} IS NULL"

/-- Whether a row fulfils what is demanded. Nothing is equal to null. -/
def Holds (params : List Value) (row : Values) : Demand → Prop
  | equals column slot => row column ≠ .null ∧ params[slot - 1]? = some (row column)
  | absent column => row column = .null

end Demand

/-- What follows on a statement to say which rows it is for. -/
def whereText (demands : List Demand) : String :=
  " WHERE " ++ Text.join " AND " (demands.map Demand.text)

theorem text_first (column : String) : Demand.text (.equals column 1) = s!"{column} = $1" := by
  rw [Demand.text, show toString 1 = "1" from rfl]
  apply String.toList_injective
  simp [toString]

theorem whereText_first (column : String) : whereText [.equals column 1] = s!" WHERE {column} = $1" := by
  apply String.toList_injective
  simp [whereText, Text.join, text_first, toString]

theorem whereText_live (column absent : String) :
    whereText [.equals column 1, .absent absent] = s!" WHERE {column} = $1 AND {absent} IS NULL" := by
  rw [whereText, List.map_cons, text_first]
  apply String.toList_injective
  simp [Text.join, Demand.text, toString]

/-- The row is one of those that a statement is for. -/
def Matches (demands : List Demand) (params : List Value) (row : Values) : Prop :=
  ∀ demand ∈ demands, demand.Holds params row

/-- Each column of the key has something demanded of it. -/
def Constrains (demands : List Demand) (key : List String) : Prop :=
  ∀ column ∈ key, column ∈ demands.map Demand.column

/-- Rows as a table with this key holds them. -/
structure Keyed (key : List String) (rows : Set Values) : Prop where
  given : ∀ row ∈ rows, ∀ column ∈ key, row column ≠ .null
  unique : ∀ row ∈ rows, ∀ other ∈ rows, (∀ column ∈ key, row column = other column) → row = other

/-- Whatever a table with this key holds, and whatever is bound, the demands are met by one row at most. -/
def AddressesOne (demands : List Demand) (key : List String) : Prop :=
  ∀ rows, Keyed key rows → ∀ params, ∀ row ∈ rows, ∀ other ∈ rows,
    Matches demands params row → Matches demands params other → row = other

variable {demands : List Demand} {key : List String} {params : List Value} {row other : Values}

/-- Rows that meet the same demands agree where something is demanded. -/
theorem Matches.agree (h : Matches demands params row) (h' : Matches demands params other)
    {column : String} (constrained : column ∈ demands.map Demand.column) : row column = other column := by
  obtain ⟨demand, hdemand, rfl⟩ := List.mem_map.mp constrained
  have hrow := h demand hdemand
  have hother := h' demand hdemand
  cases demand with
  | equals column slot => exact Option.some.inj (hrow.2.symm.trans hother.2)
  | absent column => exact hrow.trans hother.symm

theorem Matches.congr (h : Matches demands params row)
    (same : ∀ column ∈ demands.map Demand.column, other column = row column) :
    Matches demands params other := by
  intro demand hdemand
  have hrow := h demand hdemand
  have hcolumn := same demand.column (List.mem_map_of_mem hdemand)
  cases demand with
  | equals column slot =>
      rw [Demand.Holds, show other column = row column from hcolumn]
      exact hrow
  | absent column => exact hcolumn.trans hrow

theorem addressesOne_of_constrains (h : Constrains demands key) : AddressesOne demands key :=
  fun _ keyed _ row hrow other hother hmatch hmatch' =>
    keyed.unique row hrow other hother fun column hcolumn => hmatch.agree hmatch' (h column hcolumn)

/-- Unless something is demanded of each column of the key, a row that meets the demands has another one
beside it. -/
theorem addressesOne_iff : AddressesOne demands key ↔ Constrains demands key ∨
    ∀ params row, (∀ column ∈ key, row column ≠ .null) → ¬ Matches demands params row := by
  constructor
  · intro h
    by_contra hnot
    obtain ⟨hopen, hmet⟩ := not_or.mp hnot
    unfold Constrains at hopen
    push Not at hopen hmet
    obtain ⟨column, hcolumn, hfree⟩ := hopen
    obtain ⟨params, row, hgiven, hmatch⟩ := hmet
    -- The other row has another value in the open column.
    obtain ⟨v, hv, hother⟩ : ∃ v : Value, v ≠ .null ∧ v ≠ row column := by
      by_cases htrue : row column = .bool true
      · exact ⟨.bool false, nofun, by simp [htrue]⟩
      · exact ⟨.bool true, nofun, Ne.symm htrue⟩
    have hapart : Function.update row column v ≠ row := fun hsame => hother (by
      rw [← hsame, Function.update_self])
    have keyed : Keyed key {row, Function.update row column v} := by
      constructor
      · rintro _ (rfl | rfl) c hc
        · exact hgiven c hc
        · by_cases hsame : c = column
          · rw [hsame, Function.update_self]
            exact hv
          · rw [Function.update_of_ne hsame]
            exact hgiven c hc
      · rintro _ (rfl | rfl) _ (rfl | rfl) hagree
        · rfl
        · exact absurd ((hagree column hcolumn).trans (Function.update_self ..)).symm hother
        · exact absurd ((hagree column hcolumn).symm.trans (Function.update_self ..)).symm hother
        · rfl
    have hmatch' : Matches demands params (Function.update row column v) :=
      hmatch.congr fun c hc => Function.update_of_ne (fun (hsame : c = column) => hfree (hsame ▸ hc)) ..
    exact hapart (h _ keyed params _ (by simp) _ (by simp) hmatch' hmatch)
  · rintro (hconstrains | hunmet)
    · exact addressesOne_of_constrains hconstrains
    · intro rows keyed params row hrow _ _ hmatch
      exact absurd hmatch (hunmet params row (keyed.given row hrow))

section

variable {first : String} {rest : List String}

theorem constrains_first (fresh : first ∉ rest) :
    Constrains [.equals first 1] (first :: rest) ↔ rest = [] := by
  constructor
  · intro h
    refine List.eq_nil_iff_forall_not_mem.mpr fun column hcolumn => fresh ?_
    have hfirst : column = first := by
      simpa [Demand.column] using h column (List.mem_cons_of_mem _ hcolumn)
    exact hfirst ▸ hcolumn
  · rintro rfl
    simp [Constrains, Demand.column]

/-- One row at most is asked for by the first column of a key exactly if there is no other. -/
theorem addressesOne_first (fresh : first ∉ rest) :
    AddressesOne [.equals first 1] (first :: rest) ↔ rest = [] := by
  rw [addressesOne_iff, constrains_first fresh]
  refine or_iff_left fun hunmet => hunmet [.int 0] (fun _ => .int 0) (fun _ _ => nofun) ?_
  simp [Matches, Demand.Holds]

theorem constrains_live {column : String} (fresh : first ∉ rest) :
    Constrains [.equals first 1, .absent column] (first :: rest) ↔ ∀ c ∈ rest, c = column := by
  simp only [Constrains, List.map_cons, List.map_nil, Demand.column, List.forall_mem_cons,
    List.mem_pair, true_or, true_and]
  refine forall₂_congr fun c hc => or_iff_right ?_
  rintro rfl
  exact fresh hc

/-- That a column of the key is null holds of no row. -/
theorem addressesOne_live {column : String} (fresh : first ∉ rest) :
    AddressesOne [.equals first 1, .absent column] (first :: rest) ↔
      rest = [] ∨ column ∈ first :: rest := by
  rw [addressesOne_iff, constrains_live fresh]
  constructor
  · rintro (honly | hunmet)
    · cases rest with
      | nil => exact .inl rfl
      | cons c more => exact .inr (by simp [honly c List.mem_cons_self])
    · by_contra hnot
      obtain ⟨-, houtside⟩ := not_or.mp hnot
      refine hunmet [.int 0] (Function.update (fun _ => .int 0) column .null) (fun c hc => ?_) ?_
      · rw [Function.update_of_ne fun (hsame : c = column) => houtside (hsame ▸ hc)]
        exact nofun
      · have hfirst : first ≠ column := fun hsame => houtside (hsame ▸ List.mem_cons_self)
        simp [Matches, Demand.Holds, hfirst]
  · rintro (rfl | hinside)
    · exact .inl (by simp)
    · exact .inr fun params row hgiven hmatch =>
        hgiven column hinside (hmatch (.absent column) (by simp))

end

/-- An update demands of a row that its key column is equal to the first value that is bound. -/
theorem update_addressed {table keyColumn : String} {value : Value} {changes : Row}
    {columns : List String} {st : Bound} (h : update table keyColumn value changes columns = .ok st) :
    (∃ assignments, st.sql = s!"UPDATE {table} SET " ++ assignments ++ whereText [.equals keyColumn 1]
      ++ " RETURNING *") ∧ st.params[0]? = some value := by
  unfold update at h
  extract_lets isKnown unknown ordered assignments at h
  split at h
  · split at h
    · cases h
    · obtain rfl := Except.ok.inj h
      refine ⟨⟨assignments, ?_⟩, rfl⟩
      rw [whereText_first]
      apply String.toList_injective
      simp [toString]
  · cases h

end Statement

namespace Schema.Table

open Statement (Demand whereText)

variable {t : Table} {key : String} {rest : List String}

/-- The columns of the key. -/
def keyColumns (t : Table) : List String :=
  (t.fields.filter (·.primaryKey)).map (·.name)

theorem primaryKey_eq (h : t.keyColumns = key :: rest) : t.primaryKey = some key := by
  have hfirst : (t.fields.find? (·.primaryKey)).map (·.name) = some key := by
    rw [← List.head?_filter, ← List.head?_map]
    exact congrArg List.head? h
  obtain ⟨f, hf, rfl⟩ := Option.map_eq_some_iff.mp hfirst
  rw [primaryKey, hf]

theorem exists_keyField? (h : t.keyColumns = key :: rest) : ∃ f, t.keyField? = some f ∧ f.name = key := by
  have hmem : key ∈ t.keyColumns := h ▸ List.mem_cons_self
  obtain ⟨f, hf, hname⟩ := List.mem_map.mp hmem
  have hthere : (t.field? key).isSome := List.find?_isSome.mpr
    ⟨f, List.mem_reverse.mpr (List.mem_filter.mp hf).1, beq_iff_eq.mpr hname⟩
  obtain ⟨g, hg⟩ := Option.isSome_iff_exists.mp hthere
  exact ⟨g, by rw [keyField?, primaryKey_eq h, Option.bind_some, hg], by simpa using List.find?_some hg⟩

/-- A statement kept for the row with a key: what it does, and what it demands of the row. -/
structure Addressed where
  name : String
  action : String
  demands : List Demand

def Addressed.sql (a : Addressed) : String :=
  a.action ++ whereText a.demands

/-- The statements for the row with a key. Only looking for a live row demands more than the key. -/
def addressed (t : Table) (key : String) : List Addressed :=
  let keyed := [Demand.equals key 1]
  (if t.hasSoftDelete then
    [⟨"FIND_BY_ID_SQL", t.selectAllSql, keyed ++ [.absent softDeleteColumn]⟩,
      ⟨"FIND_BY_ID_WITH_DELETED_SQL", t.selectAllSql, keyed⟩,
      ⟨"SOFT_DELETE_SQL", s!"UPDATE {t.name} SET deleted_at = CURRENT_TIMESTAMP", keyed⟩]
  else [⟨"FIND_BY_ID_SQL", t.selectAllSql, keyed⟩])
    ++ [⟨"DELETE_SQL", s!"DELETE FROM {t.name}", keyed⟩]

theorem computedByKey_eq (t : Table) (key : String) :
    t.computedByKey key = (t.addressed key).map fun a => (a.name, .text a.sql) := by
  have hfind : t.findSql key = t.selectAllSql ++ whereText [.equals key 1] := by
    rw [Statement.whereText_first]
    apply String.toList_injective
    simp [findSql, toString]
  have hlive : t.findLiveSql key =
      t.selectAllSql ++ whereText [.equals key 1, .absent softDeleteColumn] := by
    rw [Statement.whereText_live]
    apply String.toList_injective
    simp [findLiveSql, findSql, softDeleteColumn, toString]
  have hsoft : t.softDeleteSql key = s!"UPDATE {t.name} SET deleted_at = CURRENT_TIMESTAMP"
      ++ whereText [.equals key 1] := by
    rw [Statement.whereText_first]
    apply String.toList_injective
    simp [softDeleteSql, toString]
  have hdelete : t.deleteSql key = s!"DELETE FROM {t.name}" ++ whereText [.equals key 1] := by
    rw [Statement.whereText_first]
    apply String.toList_injective
    simp [deleteSql, toString]
  unfold computedByKey addressed
  rw [hfind, hlive, hsoft, hdelete]
  split <;> rfl

end Schema.Table

namespace Generation

open Code (Literal)
open Schema (Registry Table softDeleteColumn)
open Statement (AddressesOne Constrains Demand whereText)

def keyedNames : List String :=
  ["FIND_BY_ID_SQL", "FIND_BY_ID_WITH_DELETED_SQL", "SOFT_DELETE_SQL", "DELETE_SQL"]

theorem emitted_keyed {t : Table} (distinct : t.fieldNames.Nodup) {key : String} {rest : List String}
    (h : t.keyColumns = key :: rest) {name : String} (hname : name ∈ keyedNames) {value : Literal} :
    emitted t name = some value ↔ ∃ a ∈ t.addressed key, a.name = name ∧ value = .text a.sql := by
  obtain ⟨f, hf, rfl⟩ := Table.exists_keyField? h
  have hcomputed (d : Code.Datum) : (name, d) ∈ t.computed ↔ (name, d) ∈ t.computedByKey f.name := by
    simp only [keyedNames, List.mem_cons, List.not_mem_nil, or_false] at hname
    rcases hname with rfl | rfl | rfl | rfl
    all_goals simp [Table.computed, hf]
  rw [emitted_eq_some_iff distinct]
  simp only [hcomputed, Table.computedByKey_eq, List.mem_map, Prod.mk.injEq]
  constructor
  · rintro ⟨_, ⟨a, ha, hsame, rfl⟩, rfl⟩
    exact ⟨a, ha, hsame, rfl⟩
  · rintro ⟨a, ha, hsame, rfl⟩
    exact ⟨_, ⟨a, ha, hsame, rfl⟩, rfl⟩

theorem demands_addressed {t : Table} {key : String} {a : Table.Addressed} (ha : a ∈ t.addressed key) :
    a.demands = if a.name = "FIND_BY_ID_SQL" ∧ t.hasSoftDelete = true then
      [.equals key 1, .absent softDeleteColumn] else [.equals key 1] := by
  unfold Table.addressed at ha
  split at ha
  · next hsoft =>
      simp only [List.cons_append, List.nil_append, List.mem_cons, List.not_mem_nil, or_false] at ha
      rcases ha with rfl | rfl | rfl | rfl
      all_goals simp [hsoft]
  · next hsoft =>
      simp only [List.cons_append, List.nil_append, List.mem_cons, List.not_mem_nil, or_false] at ha
      rcases ha with rfl | rfl
      all_goals simp [hsoft]

/-- The first column of a key addresses rows, and the rest of the key does not. -/
structure AddressedByFirst (t : Table) (key : String) (rest : List String) : Prop where
  split : t.keyColumns = key :: rest
  kept : ∀ name ∈ keyedNames, ∀ value, emitted t name = some value ↔
    ∃ a ∈ t.addressed key, a.name = name ∧ value = .text a.sql
  demands : ∀ a ∈ t.addressed key, a.demands =
    if a.name = "FIND_BY_ID_SQL" ∧ t.hasSoftDelete = true then
      [.equals key 1, .absent softDeleteColumn] else [.equals key 1]
  asksForUpdate : t.inputFields ≠ [] → ∃ f ∈ TableModule.functions t, f.name = "update" ∧
    TableModule.line ("sql, params = build_update(TABLE_NAME, " ++ Text.sourceQuoted key
      ++ s!", {key}, values, INPUT_COLUMNS)") ∈ f.body
  update : ∀ value changes columns st, Statement.update t.name key value changes columns = .ok st →
    (∃ assignments, st.sql = s!"UPDATE {t.name} SET " ++ assignments ++ whereText [.equals key 1]
      ++ " RETURNING *") ∧ st.params[0]? = some value
  byKey : (Constrains [.equals key 1] t.keyColumns ↔ rest = []) ∧
    (AddressesOne [.equals key 1] t.keyColumns ↔ rest = [])
  /-- No row whose key holds the mark of deletion is found as a live one. -/
  live : (Constrains [.equals key 1, .absent softDeleteColumn] t.keyColumns ↔
      ∀ column ∈ rest, column = softDeleteColumn) ∧
    (AddressesOne [.equals key 1, .absent softDeleteColumn] t.keyColumns ↔
      rest = [] ∨ softDeleteColumn ∈ t.keyColumns)

/-- All statements for the row with a key, those that are kept and the updates, demand of a row that its
first key column is equal to the one value that is bound, and nothing of the others. So they are for one row
at most exactly if the key has no others. -/
theorem statements_address_first_key_column (r : Registry) : ∀ t ∈ r.examine.tables, t.keyColumns ≠ [] →
    ∃ key rest, AddressedByFirst t key rest := by
  intro t ht some_
  obtain ⟨key, rest, hkey⟩ := List.exists_cons_of_ne_nil some_
  have distinct : t.fieldNames.Nodup := (List.nodup_append'.mp (Registry.nodup_members ht)).1
  have fresh : key ∉ rest := by
    have hcolumns : t.keyColumns.Nodup := distinct.sublist (List.filter_sublist.map _)
    rw [hkey] at hcolumns
    exact (List.nodup_cons.mp hcolumns).1
  refine ⟨key, rest, ?_⟩
  constructor
  case split => exact hkey
  case kept => exact fun name hname value => emitted_keyed distinct hkey hname
  case demands => exact fun a => demands_addressed
  case asksForUpdate =>
    intro hinputs
    obtain ⟨f, hf, rfl⟩ := Table.exists_keyField? hkey
    exact ⟨TableModule.update t f, by simp [TableModule.functions, hf, hinputs], rfl,
      List.mem_cons_of_mem _ List.mem_cons_self⟩
  case update => exact fun value changes columns st => Statement.update_addressed
  case byKey =>
    rw [hkey]
    exact ⟨Statement.constrains_first fresh, Statement.addressesOne_first fresh⟩
  case live =>
    rw [hkey]
    exact ⟨Statement.constrains_live fresh, Statement.addressesOne_live fresh⟩

/-- A user is a member of several groups, with a role in each. -/
def memberships : Table :=
  { name := "memberships"
    fields := [{ name := "user_id", type := ⟨.i64, false⟩, primaryKey := true },
      { name := "group_id", type := ⟨.i64, false⟩, primaryKey := true },
      { name := "role", type := ⟨.text, false⟩ }] }

def joined : Registry where
  entries := [
    { table := "memberships", fragments := [{ table := "memberships", fields := memberships.fields }] }]
  distinct := by decide

theorem accepted_memberships : memberships ∈ joined.examine.tables := by
  decide +kernel

theorem statements_address_first_key_column_memberships :
    emitted memberships "DELETE_SQL" = some (.text "DELETE FROM memberships WHERE user_id = $1") ∧
      ∃ a ∈ memberships.addressed "user_id", a.name = "DELETE_SQL" ∧
        ¬ Constrains a.demands memberships.keyColumns ∧
          ¬ AddressesOne a.demands memberships.keyColumns := by
  obtain ⟨key, rest, h⟩ :=
    statements_address_first_key_column joined memberships accepted_memberships (by decide)
  obtain ⟨rfl, rfl⟩ : "user_id" = key ∧ ["group_id"] = rest := List.cons_eq_cons.mp h.split
  have hdelete : emitted memberships "DELETE_SQL" =
      some (.text "DELETE FROM memberships WHERE user_id = $1") := by decide +kernel
  obtain ⟨a, ha, hname, -⟩ := (h.kept "DELETE_SQL" (by decide) _).mp hdelete
  have hdemands : a.demands = [.equals "user_id" 1] := by
    rw [h.demands a ha, hname, if_neg (by simp)]
  refine ⟨hdelete, a, ha, hname, ?_, ?_⟩
  · rw [hdemands, h.byKey.1]
    exact List.cons_ne_nil _ _
  · rw [hdemands, h.byKey.2]
    exact List.cons_ne_nil _ _

/-- The row of a user in a group. -/
def membership (user group : Int) : Statement.Values :=
  fun column => if column = "user_id" then .int user else if column = "group_id" then .int group
    else .text "member"

/-- Two rows have different keys, and both are deleted by the first column of one of them. -/
theorem membership_deleted_with_another :
    memberships ∈ joined.examine.tables ∧ memberships.keyColumns = ["user_id", "group_id"] ∧
      emitted memberships "DELETE_SQL" =
        some (.text ("DELETE FROM memberships" ++ whereText [.equals "user_id" 1])) ∧
      ¬ Constrains [.equals "user_id" 1] memberships.keyColumns ∧
      membership 1 1 ≠ membership 1 2 ∧
        Statement.Keyed memberships.keyColumns {membership 1 1, membership 1 2} ∧
          Statement.Matches [.equals "user_id" 1] [.int 1] (membership 1 1) ∧
            Statement.Matches [.equals "user_id" 1] [.int 1] (membership 1 2) := by
  have hapart : membership 1 1 "group_id" ≠ membership 1 2 "group_id" := by simp [membership]
  have hgiven (user group : Int) (column : String) : membership user group column ≠ .null := by
    unfold membership
    split
    · exact nofun
    · split <;> exact nofun
  have hmatch (group : Int) : Statement.Matches [.equals "user_id" 1] [.int 1] (membership 1 group) := by
    refine List.forall_mem_singleton.mpr ⟨hgiven 1 group "user_id", ?_⟩
    simp [membership]
  refine ⟨accepted_memberships, by decide, by decide +kernel, ?_, ?_, ⟨?_, ?_⟩, hmatch 1, hmatch 2⟩
  · simp [Constrains, Table.keyColumns, memberships, Demand.column]
  · exact fun hsame => hapart (congrFun hsame "group_id")
  · rintro _ (rfl | rfl) column -
    all_goals exact hgiven _ _ column
  · rintro _ (rfl | rfl) _ (rfl | rfl) hagree
    · rfl
    · exact absurd (hagree "group_id" (by decide)) hapart
    · exact absurd (hagree "group_id" (by decide)).symm hapart
    · rfl

end Generation

end TableLoom
