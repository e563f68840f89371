import Mathlib
import TableLoom.Proofs.Check.Entries
import TableLoom.Proofs.Text.Legible
import TableLoom.Proofs.Text.Tokens
import TableLoom.Statement.Write

/-!
Partial updates read back. The settings of an update are the changed columns, in the order of the table,
each with the number of its placeholder; looked up among the values that are bound, they are the changes
again. What an update is depends on the changes, not on the order in which they are given.
-/

namespace TableLoom

namespace Statement

variable {table keyColumn : String} {key : Value} {changes changes' : Row} {columns : List String}

/-- The changed columns, in the order of the table. -/
def changed (changes : Row) (columns : List String) : List String :=
  columns.filter fun c => (Value.find? c changes).isSome

/-- The columns that an update sets, each with the number of its placeholder. -/
def settings (changes : Row) (columns : List String) : List (String × Nat) :=
  (changed changes columns).zipIdx 2

def settingText (setting : String × Nat) : String :=
  s!"{setting.1} = ${setting.2}"

def updateText (table keyColumn : String) (settings : List (String × Nat)) : String :=
  s!"UPDATE {table} SET " ++ Text.join ", " (settings.map settingText)
    ++ s!" WHERE {keyColumn} = $1 RETURNING *"

/-- Every change is of a column of the table. -/
def Known (changes : Row) (columns : List String) : Prop :=
  ∀ change ∈ changes, ∃ column ∈ columns, change.1 = .text column

theorem Known.of_perm (h : Known changes columns) (same : changes.Perm changes') : Known changes' columns :=
  fun change hchange => h change (same.mem_iff.mpr hchange)

theorem sql_assign (first : Nat) (cs : List String) :
    (assign first cs).map Assignment.sql = (cs.zipIdx first).map settingText := by
  induction cs generalizing first with
  | nil => rfl
  | cons c rest ih =>
      have hone : Assignment.sql ⟨c, first⟩ = settingText (c, first) := by
        apply String.toList_injective
        simp [Assignment.sql, placeholder, settingText, toString]
      rw [assign, List.map_cons, List.zipIdx_cons, List.map_cons, ih, hone]

theorem changed_eq_nil (distinct : (changes.map Prod.fst).Nodup) (known : Known changes columns) :
    changed changes columns = [] ↔ changes = [] := by
  constructor
  · intro hnone
    refine List.eq_nil_iff_forall_not_mem.mpr fun change hchange => ?_
    obtain ⟨column, hcolumn, hkey⟩ := known change hchange
    have hfound : Value.find? column changes = some change.2 :=
      (Value.find?_eq_some_iff distinct).mpr (hkey ▸ hchange)
    have hmem : column ∈ changed changes columns := List.mem_filter.mpr ⟨hcolumn, by rw [hfound]; rfl⟩
    rw [hnone] at hmem
    cases hmem
  · rintro rfl
    exact List.filter_eq_nil_iff.mpr fun _ _ => by simp [Value.find?]

/-- What an update can be: it fails unless something is changed and all changes are known. -/
theorem update_cases (distinct : (changes.map Prod.fst).Nodup) :
    (¬ Known changes columns ∧ ∃ unknown,
      update table keyColumn key changes columns = .error (.unknownColumns table unknown)) ∨
    (changes = [] ∧ update table keyColumn key changes columns = .error (.nothingToUpdate table)) ∨
    (Known changes columns ∧ changes ≠ [] ∧ update table keyColumn key changes columns = .ok
      ⟨updateText table keyColumn (settings changes columns),
        key :: (changed changes columns).filterMap (Value.find? · changes)⟩) := by
  unfold update
  extract_lets isKnown unknown ordered assignments
  have hone (k : Value) : isKnown k = true ↔ ∃ column ∈ columns, k = .text column := by
    cases k <;> simp [isKnown]
  have hunknown : unknown.isEmpty = true ↔ Known changes columns := by
    simp [unknown, Known, hone]
  have hassignments : assignments = Text.join ", " ((settings changes columns).map settingText) :=
    congrArg (Text.join ", ") (sql_assign 2 ordered)
  split
  · next hall =>
      have known := hunknown.mp hall
      split
      · next hnone =>
          have hchanges := (changed_eq_nil distinct known).mp (List.isEmpty_iff.mp hnone)
          exact .inr (.inl ⟨hchanges, rfl⟩)
      · next hsome =>
          have hchanges : changes ≠ [] := fun h =>
            hsome (List.isEmpty_iff.mpr ((changed_eq_nil distinct known).mpr h))
          refine .inr (.inr ⟨known, hchanges, congrArg Except.ok ?_⟩)
          rw [hassignments]
          congr 1
          apply String.toList_injective
          simp [updateText, toString]
  · next hsome => exact .inl ⟨fun known => hsome (hunknown.mpr known), _, rfl⟩

/-- An update fails if nothing is changed, or a change is of no column of the table. -/
theorem update_error_iff (distinct : (changes.map Prod.fst).Nodup) :
    (∃ e, update table keyColumn key changes columns = .error e) ↔
      changes = [] ∨ ¬ Known changes columns := by
  obtain ⟨hunknown, _, heq⟩ | ⟨hnone, heq⟩ | ⟨hknown, hsome, heq⟩ := update_cases distinct
  · exact iff_of_true ⟨_, heq⟩ (.inr hunknown)
  · exact iff_of_true ⟨_, heq⟩ (.inl hnone)
  · refine iff_of_false ?_ (by simp [hknown, hsome])
    rintro ⟨e, he⟩
    cases heq.symm.trans he

/-- What is set, with the value that is bound to the placeholder. The first values are those bound before. -/
def readBack (settings : List (String × Nat)) (params : List Value) : List (Value × Option Value) :=
  settings.map fun s => (.text s.1, params[s.2 - 1]?)

theorem readBack_zipIdx {f : String → Option Value} {cs : List String} (h : ∀ c ∈ cs, (f c).isSome)
    (before : List Value) :
    readBack (cs.zipIdx (before.length + 1)) (before ++ cs.filterMap f) =
      cs.map fun c => (.text c, f c) := by
  induction cs generalizing before with
  | nil => rfl
  | cons c rest ih =>
      obtain ⟨hc, hrest⟩ := List.forall_mem_cons.mp h
      obtain ⟨v, hv⟩ := Option.isSome_iff_exists.mp hc
      have hplace := ih hrest (before ++ [v])
      rw [List.length_append, List.length_singleton, List.append_assoc, List.singleton_append] at hplace
      rw [List.zipIdx_cons, List.filterMap_cons_some hv, readBack, List.map_cons, ← readBack, hplace,
        List.map_cons, hv]
      simp

theorem changes_perm (distinct : (changes.map Prod.fst).Nodup) (columns_distinct : columns.Nodup)
    (known : Known changes columns) :
    ((changed changes columns).map fun c => (Value.text c, Value.find? c changes)).Perm
      (changes.map fun change => (change.1, some change.2)) := by
  have hchanged : ((changed changes columns).map fun c => (Value.text c, Value.find? c changes)).Nodup :=
    (columns_distinct.filter _).map fun c d h => Value.text.inj (congrArg Prod.fst h)
  have hchanges : (changes.map fun change => (change.1, some change.2)).Nodup := by
    refine List.Nodup.of_map Prod.fst ?_
    rwa [List.map_map]
  rw [List.perm_ext_iff_of_nodup hchanged hchanges]
  rintro ⟨k, value⟩
  simp only [List.mem_map, Prod.mk.injEq]
  constructor
  · rintro ⟨c, hc, rfl, rfl⟩
    obtain ⟨v, hv⟩ := Option.isSome_iff_exists.mp (List.mem_filter.mp hc).2
    exact ⟨(.text c, v), (Value.find?_eq_some_iff distinct).mp hv, rfl, hv.symm⟩
  · rintro ⟨⟨k, v⟩, hchange, rfl, rfl⟩
    obtain ⟨c, hc, rfl⟩ := known _ hchange
    have hfound := (Value.find?_eq_some_iff distinct).mpr hchange
    exact ⟨c, List.mem_filter.mpr ⟨hc, by rw [hfound]; rfl⟩, rfl, hfound⟩

theorem length_changed (distinct : (changes.map Prod.fst).Nodup) (columns_distinct : columns.Nodup)
    (known : Known changes columns) : (changed changes columns).length = changes.length := by
  simpa using (changes_perm distinct columns_distinct known).length_eq

theorem update_of_known (distinct : (changes.map Prod.fst).Nodup) (known : Known changes columns)
    (some_ : changes ≠ []) : update table keyColumn key changes columns = .ok
      ⟨updateText table keyColumn (settings changes columns),
        key :: (changed changes columns).filterMap (Value.find? · changes)⟩ := by
  obtain ⟨hunknown, -⟩ | ⟨hnone, -⟩ | ⟨-, -, heq⟩ := update_cases distinct
  · exact absurd known hunknown
  · exact absurd hnone some_
  · exact heq

/-- An update does not depend on the order in which the changes are given. -/
theorem update_of_perm (distinct : (changes.map Prod.fst).Nodup) (same : changes.Perm changes') :
    (update table keyColumn key changes columns).toOption =
      (update table keyColumn key changes' columns).toOption := by
  have distinct' := (same.map Prod.fst).nodup_iff.mp distinct
  by_cases h : changes = [] ∨ ¬ Known changes columns
  · have h' : changes' = [] ∨ ¬ Known changes' columns :=
      h.imp (fun hnone => (hnone ▸ same).symm.eq_nil) fun hunknown known => hunknown (known.of_perm same.symm)
    obtain ⟨e, he⟩ := (update_error_iff distinct).mpr h
    obtain ⟨e', he'⟩ := (update_error_iff distinct').mpr h'
    rw [he, he']
    rfl
  · obtain ⟨hsome, known⟩ := not_or.mp h
    have known := not_not.mp known
    have hfind : (Value.find? · changes) = (Value.find? · changes') :=
      funext fun _ => Value.find?_of_perm distinct same
    have hchanged : changed changes columns = changed changes' columns :=
      congrArg (fun f : String → Option Value => columns.filter fun c => (f c).isSome) hfind
    rw [update_of_known distinct known hsome, settings, hchanged, hfind,
      update_of_known distinct' (known.of_perm same) fun hnone => hsome (hnone ▸ same).eq_nil]
    rfl

section

open Text

/-- An update as it is written: the columns that it sets, and the column of the key, each with the number
of its placeholder. -/
structure Written where
  table : String
  settings : List (String × Nat)
  keyColumn : String
  keySlot : Nat

/-- The settings at the head of some tokens, and the tokens behind them. -/
def readSettings : List String → Option (List (String × Nat) × List String)
  | column :: "=" :: "$" :: number :: "," :: rest => do
    let slot ← number.toNat?
    let (more, behind) ← readSettings rest
    return ((column, slot) :: more, behind)
  | column :: "=" :: "$" :: number :: rest => do
    let slot ← number.toNat?
    return ([(column, slot)], rest)
  | _ => none

/-- An update read back from its text. -/
def readUpdate (sql : String) : Option Written :=
  match tokens sql with
  | "UPDATE" :: table :: "SET" :: rest => do
    let (settings, behind) ← readSettings rest
    match behind with
    | ["WHERE", keyColumn, "=", "$", number, "RETURNING", "*"] => do
      let slot ← number.toNat?
      return ⟨table, settings, keyColumn, slot⟩
    | _ => none
  | _ => none

def settingTokens (setting : String × Nat) : List String :=
  [setting.1, "=", "$", toString setting.2]

theorem tokens_number (n : Nat) : tokens (toString n) = [toString n] := by
  have hdigits : ∀ c ∈ (toString n).toList, isNameRest c = true := fun c hc => by
    simp [isNameRest, Char.isAlphanum, isDigit_number n c hc]
  have hsome : ¬ (toString n).toList.isEmpty = true := by
    simp [toString]
  rw [tokens, readTokens_word [] hdigits, List.nil_append, pending, if_neg hsome, String.ofList_toList]

theorem tokens_settingText {setting : String × Nat} (h : IsName setting.1) :
    tokens (settingText setting) = settingTokens setting := by
  unfold settingText
  have hnumber := tokens_number setting.2
  simp +decide only [toString, tokens_append_begins, tokens_append_ends, endsApart_append, h.tokens] at hnumber ⊢
  rw [hnumber]
  rfl

theorem readSettings_last (setting : String × Nat) {behind : List String} (apart : behind.head? ≠ some ",") :
    readSettings (settingTokens setting ++ behind) = some ([setting], behind) := by
  unfold settingTokens
  simp only [List.cons_append, List.nil_append]
  rw [readSettings]
  · simp [toString, Nat.toNat?_repr]
  · rintro rest rfl
    exact apart rfl

theorem readSettings_more (setting : String × Nat) (rest : List String) :
    readSettings (settingTokens setting ++ "," :: rest) =
      (readSettings rest).map fun more => (setting :: more.1, more.2) := by
  unfold settingTokens
  simp only [List.cons_append, List.nil_append]
  rw [readSettings]
  cases readSettings rest <;> simp [toString, Nat.toNat?_repr]

theorem readSettings_commas {ss : List (String × Nat)} (some_ : ss ≠ []) {behind : List String}
    (apart : behind.head? ≠ some ",") :
    readSettings (commas (ss.map settingTokens) ++ behind) = some (ss, behind) := by
  induction ss with
  | nil => exact absurd rfl some_
  | cons s rest ih =>
      cases rest with
      | nil =>
          rw [List.map_singleton, commas, List.intercalate_singleton]
          exact readSettings_last s apart
      | cons next rest =>
          rw [List.map_cons, List.map_cons, commas_cons_cons, List.append_assoc, List.cons_append,
            readSettings_more, ← List.map_cons, ih (List.cons_ne_nil _ _)]
          rfl

theorem tokens_updateText {ss : List (String × Nat)} (htable : IsName table)
    (hkey : IsName keyColumn) (hcolumns : ∀ s ∈ ss, IsName s.1) :
    tokens (updateText table keyColumn ss) = "UPDATE" :: table :: "SET" :: (commas (ss.map settingTokens)
      ++ ["WHERE", keyColumn, "=", "$", "1", "RETURNING", "*"]) := by
  have hsettings : (ss.map settingText).map tokens = ss.map settingTokens := by
    rw [List.map_map]
    exact List.map_congr_left fun s hs => tokens_settingText (hcolumns s hs)
  have hhead : tokens s!"UPDATE {table} SET " = ["UPDATE", table, "SET"] := by
    simp +decide only [toString, tokens_append_begins, tokens_append_ends, htable.tokens]
    rfl
  have htail : tokens s!" WHERE {keyColumn} = $1 RETURNING *" =
      ["WHERE", keyColumn, "=", "$", "1", "RETURNING", "*"] := by
    simp +decide only [toString, tokens_append_begins, tokens_append_ends, hkey.tokens]
    rfl
  rw [updateText, tokens_append_begins _ (beginsApart_append (beginsApart_append (by decide) _) _),
    tokens_append_ends (endsApart_append _ (by decide)), hhead, htail, tokens_join, hsettings]
  simp

theorem readUpdate_updateText {ss : List (String × Nat)} (some_ : ss ≠ []) (htable : IsName table)
    (hkey : IsName keyColumn) (hcolumns : ∀ s ∈ ss, IsName s.1) :
    readUpdate (updateText table keyColumn ss) = some ⟨table, ss, keyColumn, 1⟩ := by
  have hnumber : "1".toNat? = some 1 := Nat.toNat?_repr 1
  have hsettings := readSettings_commas some_
    (show ["WHERE", keyColumn, "=", "$", "1", "RETURNING", "*"].head? ≠ some "," by simp)
  rw [readUpdate, tokens_updateText htable hkey hcolumns]
  simp [hsettings, hnumber]

end

theorem settings_ne_nil (distinct : (changes.map Prod.fst).Nodup) (known : Known changes columns)
    (some_ : changes ≠ []) : settings changes columns ≠ [] := by
  rw [settings, Ne, List.zipIdx_eq_nil_iff, changed_eq_nil distinct known]
  exact some_

theorem columns_settings : (settings changes columns).map Prod.fst = changed changes columns :=
  List.zipIdx_map_fst 2 _

/-- An update sets what is changed and nothing else. It fails if nothing is changed or a change is of no
column of the table. Otherwise its settings are in the order of the columns, with placeholders from two
on; what is bound to the placeholders are the changes, and the key is bound to the first. A text in which
all names are customary says as much; and no matter in which order the changes are given, the update is
the same. -/
theorem changes_read_back (table keyColumn : String) (key : Value) (changes : Row)
    (columns : List String) (distinct : (changes.map Prod.fst).Nodup) (columns_distinct : columns.Nodup) :
    ((∃ e, update table keyColumn key changes columns = .error e) ↔
      changes = [] ∨ ∃ change ∈ changes, ∀ column ∈ columns, change.1 ≠ .text column) ∧
    (changes ≠ [] → (∀ change ∈ changes, ∃ column ∈ columns, change.1 = .text column) →
      ∃ st settings, update table keyColumn key changes columns = .ok st ∧
        st.sql = updateText table keyColumn settings ∧
        (settings.map Prod.fst).Sublist columns ∧
        settings.map Prod.snd = List.range' 2 changes.length ∧
        (readBack settings st.params).Perm (changes.map fun change => (change.1, some change.2)) ∧
        st.params.length = changes.length + 1 ∧ st.params[0]? = some key ∧
        (Text.IsName table → Text.IsName keyColumn → (∀ column ∈ columns, Text.IsName column) →
          readUpdate st.sql = some ⟨table, settings, keyColumn, 1⟩)) ∧
    ∀ changes', changes.Perm changes' → (update table keyColumn key changes' columns).toOption =
      (update table keyColumn key changes columns).toOption := by
  refine ⟨?_, fun some_ known => ?_, fun changes' same => (update_of_perm distinct same).symm⟩
  · rw [update_error_iff distinct]
    simp [Known]
  · have hlength := length_changed distinct columns_distinct known
    have hsome : ∀ c ∈ changed changes columns, (Value.find? c changes).isSome :=
      fun c hc => (List.mem_filter.mp hc).2
    have hsub : (changed changes columns).Sublist columns := List.filter_sublist
    have hvalues : ((changed changes columns).filterMap (Value.find? · changes)).length = changes.length := by
      rw [List.filterMap_length_eq_length.mpr hsome, hlength]
    refine ⟨_, settings changes columns, update_of_known distinct known some_, rfl, ?_, ?_, ?_, ?_, rfl,
      fun htable hkey hcolumns => ?_⟩
    · rwa [columns_settings]
    · rw [settings, List.zipIdx_map_snd, hlength]
    · have hback := readBack_zipIdx hsome [key]
      rw [List.length_singleton] at hback
      exact hback ▸ changes_perm distinct columns_distinct known
    · rw [List.length_cons, hvalues]
    · refine readUpdate_updateText (settings_ne_nil distinct known some_) htable hkey fun s hs => ?_
      exact hcolumns _ (hsub.subset (columns_settings ▸ List.mem_map_of_mem hs))

/-- Changes in another order than that of the columns. -/
def votedChanges : Row :=
  [(.text "votes", .int 3), (.text "title", .text "one")]

theorem changes_read_back_voted :
    ∃ st settings, update "posts" "id" (.int 7) votedChanges ["id", "title", "votes"] = .ok st ∧
      settings.map Prod.snd = [2, 3] ∧
      (readBack settings st.params).Perm
        [(.text "votes", some (.int 3)), (.text "title", some (.text "one"))] ∧
      readUpdate st.sql = some ⟨"posts", settings, "id", 1⟩ := by
  obtain ⟨-, hgood, -⟩ := changes_read_back "posts" "id" (.int 7) votedChanges ["id", "title", "votes"]
    (by simp [votedChanges]) (by decide)
  obtain ⟨st, settings, hst, -, -, hslots, hback, -, -, hread⟩ :=
    hgood (by simp [votedChanges]) (by simp [votedChanges])
  exact ⟨st, settings, hst, hslots, hback, hread (by decide) (by decide) (by decide)⟩

end Statement

end TableLoom
