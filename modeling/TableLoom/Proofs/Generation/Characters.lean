import TableLoom.Generation.Statement
import TableLoom.Proofs.Text.Legible

/-!
The characters of a table's statements. Beside what is printed in ASCII they hold only what stands in the
texts given for the table: its name, the names of its fields, and its defaults on insertion.
-/

namespace TableLoom

open Text (Each each_append each_join each_toString)

namespace Text

/-- A character that is printed in ASCII, the blank among them. -/
def isAsciiPrinted (c : Char) : Bool :=
  32 ≤ c.toNat && c.toNat < 127

theorem isAsciiPrinted_number (n : Nat) : Each (isAsciiPrinted · = true) (toString n) := by
  intro c hc
  have hbounds := toNat_of_isDigit (isDigit_number n c hc)
  rw [isAsciiPrinted, Bool.and_eq_true, decide_eq_true_eq, decide_eq_true_eq]
  omega

end Text

namespace Schema.Table

variable {t : Table}

theorem mem_of_keyField? {f : Field} (h : t.keyField? = some f) : f ∈ t.fields := by
  obtain ⟨key, -, hkey⟩ := Option.bind_eq_some_iff.mp h
  exact List.mem_reverse.mp (List.mem_of_find?_eq_some hkey)

/-- A column that is written and is unique, by its own mark or by an index on it alone. -/
def Distinguishes (t : Table) (column : String) : Prop :=
  ∃ f ∈ t.inputFields, f.name = column ∧
    (f.unique = true ∨ ∃ i ∈ t.indexes, i.unique = true ∧ i.columns = [column])

theorem distinguishes_of_conflictColumn? {c : String} (h : t.conflictColumn? = some c) :
    t.Distinguishes c := by
  unfold conflictColumn? at h
  split at h
  · next f rest hunique =>
      have hf : f ∈ t.uniqueInputFields := by
        rw [hunique]
        exact List.mem_cons_self
      obtain ⟨hfield, hmarks⟩ := List.mem_filter.mp hf
      obtain ⟨hinput, hmark⟩ := Bool.and_eq_true_iff.mp hmarks
      exact ⟨f, List.mem_filter.mpr ⟨hfield, hinput⟩, Option.some_inj.mp h, .inl hmark⟩
  · obtain ⟨i, hmem, hi⟩ := List.exists_of_findSome?_eq_some h
    split at hi
    · next hmark hcolumns =>
        split at hi
        · next hany =>
            obtain ⟨f, hf, hname⟩ := List.any_eq_true.mp hany
            obtain rfl := Option.some_inj.mp hi
            exact ⟨f, hf, by simpa using hname, .inr ⟨i, hmem, hmark, hcolumns⟩⟩
        · cases hi
    · cases hi

theorem mem_of_conflictColumn? {c : String} (h : t.conflictColumn? = some c) :
    ∃ f ∈ t.fields, f.name = c := by
  obtain ⟨f, hf, hname, -⟩ := distinguishes_of_conflictColumn? h
  exact ⟨f, (List.mem_filter.mp hf).1, hname⟩

/-- The texts given for the table that its statements are made of. -/
def givenTexts (t : Table) : List String :=
  t.name :: t.fieldNames ++ t.inputFields.filterMap (·.insertDefault?)

/-- The characters that are at hand for the table's statements. -/
def Supplies (t : Table) (c : Char) : Prop :=
  Text.isAsciiPrinted c = true ∨ ∃ s ∈ t.givenTexts, c ∈ s.toList

theorem each_given {s : String} (hs : s ∈ t.givenTexts) : Each t.Supplies s :=
  fun _ hc => .inr ⟨s, hs, hc⟩

theorem each_literal {cs : List Char} (h : cs.all Text.isAsciiPrinted = true) :
    Each t.Supplies (String.ofList cs) := by
  intro c hc
  rw [String.toList_ofList] at hc
  exact .inl (List.all_eq_true.mp h c hc)

theorem each_name : Each t.Supplies t.name :=
  each_given List.mem_cons_self

theorem each_field {f : Field} (hf : f ∈ t.fields) : Each t.Supplies f.name :=
  each_given (List.mem_append_left _ (List.mem_cons_of_mem _ (List.mem_map_of_mem hf)))

theorem each_inputField {f : Field} (hf : f ∈ t.inputFields) : Each t.Supplies f.name :=
  each_field (List.mem_filter.mp hf).1

theorem each_insertDefault {f : Field} (hf : f ∈ t.inputFields) {d : String}
    (hd : f.insertDefault? = some d) : Each t.Supplies d :=
  each_given (List.mem_append_right _ (List.mem_filterMap.mpr ⟨f, hf, hd⟩))

theorem each_conflict {c : String} (hc : t.conflictColumn? = some c) : Each t.Supplies c := by
  obtain ⟨f, hf, rfl⟩ := mem_of_conflictColumn? hc
  exact each_field hf

theorem each_number (n : Nat) : Each t.Supplies (toString n) :=
  fun c hc => .inl (Text.isAsciiPrinted_number n c hc)

theorem each_commas {α : Type} {f : α → String} {as : List α} (h : ∀ a ∈ as, Each t.Supplies (f a)) :
    Each t.Supplies (Text.join ", " (as.map f)) :=
  each_join (each_literal (by decide)) (List.forall_mem_map.mpr h)

theorem each_selectAllSql : Each t.Supplies t.selectAllSql := by
  simp only [selectAllSql, each_append, each_toString, each_name, and_true]
  and_intros <;> exact each_literal (by decide)

theorem each_insertCell (n : Nat) {f : Field} (hf : f ∈ t.inputFields) :
    Each t.Supplies (insertCell n f) := by
  unfold insertCell
  split
  · next d hd =>
      simp only [each_append, each_toString, each_number, each_insertDefault hf hd, and_true]
      and_intros <;> exact each_literal (by decide)
  · simp only [each_append, each_toString, each_number, and_true]
    exact each_literal (by decide)

theorem each_insertCells (first : Nat) {fs : List Field} (hfs : fs ⊆ t.inputFields) :
    ∀ c ∈ insertCells first fs, Each t.Supplies c := by
  induction fs generalizing first with
  | nil => simp [insertCells]
  | cons f rest ih =>
      obtain ⟨hf, hrest⟩ := List.cons_subset.mp hfs
      exact List.forall_mem_cons.mpr ⟨each_insertCell first hf, ih (first + 1) hrest⟩

theorem each_insertHead : Each t.Supplies t.insertHead := by
  have hcolumns : Each t.Supplies (Text.join ", " (t.inputFields.map (·.name))) :=
    each_commas fun f hf => each_inputField hf
  have hcells : Each t.Supplies (Text.join ", " (insertCells 1 t.inputFields)) :=
    each_join (each_literal (by decide)) (each_insertCells 1 (List.Subset.refl _))
  unfold insertHead
  split
  · simp only [each_append, each_toString, each_name, and_true]
    and_intros <;> exact each_literal (by decide)
  · simp only [each_append, each_toString, each_name, hcolumns, hcells, and_true]
    and_intros <;> exact each_literal (by decide)

theorem each_insertSql : Each t.Supplies t.insertSql := by
  rw [insertSql, each_append]
  exact ⟨each_insertHead, each_literal (by decide)⟩

theorem each_upsertSql {s : String} (hs : t.upsertSql? = some s) : Each t.Supplies s := by
  obtain ⟨conflict, hconflict, rfl⟩ := Option.map_eq_some_iff.mp hs
  extract_lets others updated
  have hupdated : ∀ c ∈ updated, Each t.Supplies c := by
    intro c hc
    simp only [updated, others] at hc
    split at hc
    · exact List.mem_singleton.mp hc ▸ each_conflict hconflict
    · obtain ⟨f, hf, rfl⟩ := List.mem_map.mp (List.mem_filter.mp hc).1
      exact each_inputField hf
  have hrow (c : String) (hc : c ∈ updated) : Each t.Supplies s!"{c} = EXCLUDED.{c}" := by
    simp only [each_append, each_toString, hupdated c hc, and_true, true_and]
    exact each_literal (by decide)
  simp only [each_append, each_toString, each_insertHead, each_conflict hconflict, each_commas hrow,
    and_true, true_and]
  and_intros <;> exact each_literal (by decide)

theorem each_keyStatement {key : Field} (hkey : key ∈ t.fields) :
    Each t.Supplies (t.findSql key.name) ∧ Each t.Supplies (t.findLiveSql key.name) ∧
      Each t.Supplies (t.softDeleteSql key.name) ∧ Each t.Supplies (t.deleteSql key.name) := by
  unfold findLiveSql findSql softDeleteSql deleteSql
  simp only [each_append, each_toString, each_selectAllSql, each_name, each_field hkey, true_and,
    and_true]
  and_intros <;> exact each_literal (by decide)

theorem each_truncateSql : Each t.Supplies t.truncateSql := by
  unfold truncateSql
  simp only [each_append, each_toString, each_name, and_true]
  and_intros <;> exact each_literal (by decide)

end Schema.Table

end TableLoom
