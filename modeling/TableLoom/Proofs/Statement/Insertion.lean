import Mathlib.Data.List.Basic
import TableLoom.Statement.Write

/-!
Inserts of several rows as a grid. The cells are numbered through, row by row, and each value is bound at
the number of its cell; there is no statement only where there are no rows, or where a row gives nothing
for a column that has no default.
-/

namespace TableLoom.Statement

variable {table column : String} {columns : List String} {defaults row : Row} {rows : List Row}

theorem error_of_bind_pure {ε α β : Type} {x : Except ε α} {f : α → β} {e : ε} :
    (x >>= fun a => pure (f a)) = .error e ↔ x = .error e := by
  cases x <;> simp [bind, Except.bind, pure, Except.pure]

/-- A row gives no value for a column, and there is no default for it. -/
def lacks (defaults row : Row) (column : String) : Bool :=
  (Value.find? column row).isNone && (Value.find? column defaults).isNone

/-- What is bound for a column of a row: nothing, where the row gives nothing. -/
def boundValue (row : Row) (column : String) : Value :=
  (Value.find? column row).getD .null

/-- The text of a cell: its placeholder, which falls back to the default of the column if there is one. -/
def cellText (defaults : Row) (n : Nat) (column : String) : String :=
  match Value.find? column defaults with
  | some d => s!"COALESCE(${n}, {d.display})"
  | none => s!"${n}"

theorem sql_cell (n : Nat) : Cell.sql ⟨n, Value.find? column defaults⟩ = cellText defaults n column := by
  unfold Cell.sql cellText placeholder
  cases Value.find? column defaults with
  | none => rfl
  | some d =>
      apply String.toList_injective
      simp [toString]

/-- The cells of a row and what is bound for them, with placeholders from `first` on. -/
def rowCells (defaults row : Row) (first : Nat) (columns : List String) : List (Cell × Value) :=
  columns.mapIdx fun j c => (⟨first + j, Value.find? c defaults⟩, boundValue row c)

theorem rowCells_cons (first : Nat) (c : String) (rest : List String) :
    rowCells defaults row first (c :: rest) =
      (⟨first, Value.find? c defaults⟩, boundValue row c) :: rowCells defaults row (first + 1) rest := by
  unfold rowCells
  rw [List.mapIdx_cons]
  simp only [Nat.add_zero, Nat.add_assoc, Nat.add_comm 1]

/-- A row fails with the first column that it lacks. -/
theorem insertRow_eq (index first : Nat) (columns : List String) :
    insertRow table index defaults row first columns =
      match columns.find? (lacks defaults row) with
      | some column => .error (.missingColumn index table column)
      | none => .ok (rowCells defaults row first columns) := by
  induction columns generalizing first with
  | nil => rfl
  | cons c rest ih =>
      rw [insertRow, List.find?_cons]
      change (if lacks defaults row c then _ else _) = _
      cases hlacks : lacks defaults row c with
      | true => rfl
      | false =>
          rw [ih (first + 1)]
          cases rest.find? (lacks defaults row) with
          | some column => rfl
          | none =>
              rw [rowCells_cons]
              rfl

/-- The cells of all rows, where each row has as many as there are columns. -/
def grid (columns : List String) (defaults : Row) (first : Nat) (rows : List Row) :
    List (List (Cell × Value)) :=
  rows.mapIdx fun i row => rowCells defaults row (first + i * columns.length) columns

theorem grid_cons (first : Nat) (rest : List Row) :
    grid columns defaults first (row :: rest) = rowCells defaults row first columns ::
      grid columns defaults (first + columns.length) rest := by
  unfold grid
  rw [List.mapIdx_cons]
  simp only [Nat.zero_mul, Nat.add_zero, Nat.succ_mul, Nat.add_assoc, Nat.add_comm columns.length]

/-- The first row that lacks something, by its place, and the first column that it lacks. -/
def FirstLack (columns : List String) (defaults : Row) (rows : List Row) (i : Nat) (column : String) :
    Prop :=
  ∃ before row after, rows = before ++ row :: after ∧ before.length = i ∧
    (∀ r ∈ before, ∀ c ∈ columns, lacks defaults r c = false) ∧
    columns.find? (lacks defaults row) = some column

theorem complete_iff :
    columns.find? (lacks defaults row) = none ↔ ∀ c ∈ columns, lacks defaults row c = false := by
  simp [List.find?_eq_none]

theorem firstLack_of_lacking {i : Nat} {first : String}
    (h : columns.find? (lacks defaults row) = some first) :
    FirstLack columns defaults (row :: rows) i column ↔ i = 0 ∧ column = first := by
  constructor
  · rintro ⟨before, r, after, hrows, rfl, hbefore, hfirst⟩
    obtain ⟨rfl, hsame⟩ | ⟨before', rfl, -⟩ := List.cons_eq_append_iff.mp hrows
    · obtain ⟨rfl, -⟩ := List.cons.inj hsame
      exact ⟨rfl, Option.some.inj (hfirst.symm.trans h)⟩
    · have hnone := complete_iff.mpr (hbefore row List.mem_cons_self)
      cases h.symm.trans hnone
  · rintro ⟨rfl, rfl⟩
    exact ⟨[], row, rows, rfl, rfl, by simp, h⟩

theorem firstLack_of_complete {i : Nat} (h : ∀ c ∈ columns, lacks defaults row c = false) :
    FirstLack columns defaults (row :: rows) i column ↔
      ∃ j, i = j + 1 ∧ FirstLack columns defaults rows j column := by
  constructor
  · rintro ⟨before, r, after, hrows, rfl, hbefore, hfirst⟩
    obtain ⟨rfl, hsame⟩ | ⟨before', rfl, rfl⟩ := List.cons_eq_append_iff.mp hrows
    · obtain ⟨rfl, -⟩ := List.cons.inj hsame
      cases hfirst.symm.trans (complete_iff.mpr h)
    · exact ⟨before'.length, rfl, before', r, after, rfl, rfl, (List.forall_mem_cons.mp hbefore).2, hfirst⟩
  · rintro ⟨-, rfl, before, r, after, rfl, rfl, hbefore, hfirst⟩
    exact ⟨row :: before, r, after, rfl, rfl, List.forall_mem_cons.mpr ⟨h, hbefore⟩, hfirst⟩

theorem exists_firstLack
    (h : ∃ row ∈ rows, ∃ column ∈ columns, lacks defaults row column = true) :
    ∃ i column, FirstLack columns defaults rows i column := by
  induction rows with
  | nil => simp at h
  | cons row rest ih =>
      cases hfind : columns.find? (lacks defaults row) with
      | some column => exact ⟨0, column, (firstLack_of_lacking hfind).mpr ⟨rfl, rfl⟩⟩
      | none =>
          have hcomplete := complete_iff.mp hfind
          obtain ⟨r, hr, column, hcolumn, hlacks⟩ := h
          rcases List.mem_cons.mp hr with rfl | hr
          · cases hlacks.symm.trans (hcomplete column hcolumn)
          · obtain ⟨i, first, hfirst⟩ := ih ⟨r, hr, column, hcolumn, hlacks⟩
            exact ⟨i + 1, first, (firstLack_of_complete hcomplete).mpr ⟨i, rfl, hfirst⟩⟩

theorem insertRows_of_complete (index first : Nat)
    (h : ∀ row ∈ rows, ∀ c ∈ columns, lacks defaults row c = false) :
    insertRows table columns defaults index first rows = .ok (grid columns defaults first rows) := by
  induction rows generalizing index first with
  | nil => rfl
  | cons row rest ih =>
      obtain ⟨hrow, hrest⟩ := List.forall_mem_cons.mp h
      rw [insertRows, insertRow_eq, complete_iff.mpr hrow, ih _ _ hrest, grid_cons]
      rfl

/-- Rows fail with the first one that lacks something. -/
theorem insertRows_error_iff (index first : Nat) {e : WriteError} :
    insertRows table columns defaults index first rows = .error e ↔
      ∃ i column, FirstLack columns defaults rows i column ∧ e = .missingColumn (index + i) table column := by
  induction rows generalizing index first with
  | nil =>
      refine iff_of_false nofun ?_
      rintro ⟨i, column, ⟨before, row, after, hrows, -⟩, -⟩
      simp at hrows
  | cons row rest ih =>
      rw [insertRows, insertRow_eq]
      cases hfind : columns.find? (lacks defaults row) with
      | some missing =>
          change Except.error _ = _ ↔ _
          simp [firstLack_of_lacking hfind, eq_comm]
      | none =>
          change (insertRows table columns defaults (index + 1) (first + columns.length) rest >>=
            fun more => pure (rowCells defaults row first columns :: more)) = .error e ↔ _
          rw [error_of_bind_pure, ih]
          simp only [firstLack_of_complete (complete_iff.mp hfind)]
          constructor
          · rintro ⟨j, column, hlack, rfl⟩
            exact ⟨j + 1, column, ⟨j, rfl, hlack⟩, by rw [Nat.add_assoc, Nat.add_comm 1 j]⟩
          · rintro ⟨-, column, ⟨j, rfl, hlack⟩, rfl⟩
            exact ⟨j, column, hlack, by rw [Nat.add_assoc, Nat.add_comm 1 j]⟩

theorem values_rowCells (first : Nat) (columns : List String) :
    (rowCells defaults row first columns).map (·.2) = columns.map (boundValue row) := by
  induction columns generalizing first with
  | nil => rfl
  | cons c rest ih => rw [rowCells_cons, List.map_cons, List.map_cons, ih]

theorem texts_rowCells (first : Nat) : (rowCells defaults row first columns).map (·.1.sql) =
    columns.mapIdx fun j c => cellText defaults (first + j) c := by
  simp only [rowCells, List.mapIdx_eq_zipIdx_map, List.map_map, Function.comp_def, sql_cell]

/-- The values that are bound, row by row. -/
def boundValues (columns : List String) (rows : List Row) : List Value :=
  rows.flatMap fun row => columns.map (boundValue row)

theorem values_grid (first : Nat) :
    (grid columns defaults first rows).flatten.map (·.2) = boundValues columns rows := by
  induction rows generalizing first with
  | nil => rfl
  | cons row rest ih =>
      rw [grid_cons, List.flatten_cons, List.map_append, values_rowCells, ih]
      rfl

theorem length_boundValues : (boundValues columns rows).length = rows.length * columns.length := by
  induction rows with
  | nil => simp [boundValues]
  | cons row rest ih =>
      rw [boundValues, List.flatMap_cons, List.length_append, List.length_map, ← boundValues, ih,
        List.length_cons, Nat.succ_mul, Nat.add_comm]

/-- A value is bound at the place of its row and column. -/
theorem boundValues_at {i j : Nat} (hrow : rows[i]? = some row) (hcolumn : columns[j]? = some column) :
    (boundValues columns rows)[i * columns.length + j]? = some (boundValue row column) := by
  have hj : j < columns.length := (List.getElem?_eq_some_iff.mp hcolumn).1
  induction rows generalizing i with
  | nil => simp at hrow
  | cons r rest ih =>
      rw [boundValues, List.flatMap_cons, ← boundValues]
      cases i with
      | zero =>
          obtain rfl := Option.some.inj hrow
          rw [Nat.zero_mul, Nat.zero_add, List.getElem?_append_left (by rwa [List.length_map]),
            List.getElem?_map, hcolumn, Option.map_some]
      | succ i =>
          have hplace : (i + 1) * columns.length + j =
              (columns.map (boundValue r)).length + (i * columns.length + j) := by
            rw [List.length_map, Nat.succ_mul]
            omega
          rw [hplace, List.getElem?_append_right (Nat.le_add_right _ _), Nat.add_sub_cancel_left]
          exact ih hrow

/-- The cells of row `i`, where each row before it has as many as there are columns. -/
def tupleText (columns : List String) (defaults : Row) (i : Nat) : String :=
  "(" ++ Text.join ", " (columns.mapIdx fun j c =>
    cellText defaults (i * columns.length + j + 1) c) ++ ")"

def insertText (table : String) (columns : List String) (rows : List Row) (defaults : Row) : String :=
  let values := Text.join ", " (rows.mapIdx fun i _ => tupleText columns defaults i)
  s!"INSERT INTO {table} (" ++ Text.join ", " columns ++ s!") VALUES {values} RETURNING *"

theorem tuples_grid : (grid columns defaults 1 rows).map (fun row : List (Cell × Value) =>
    "(" ++ Text.join ", " (row.map (·.1.sql)) ++ ")") =
      rows.mapIdx fun i _ => tupleText columns defaults i := by
  rw [grid, List.mapIdx_eq_zipIdx_map, List.mapIdx_eq_zipIdx_map, List.map_map]
  simp only [Function.comp_def, texts_rowCells, tupleText, Nat.add_comm 1, Nat.add_right_comm _ 1]

theorem insertMany_of_complete (some_ : rows ≠ [])
    (h : ∀ row ∈ rows, ∀ c ∈ columns, lacks defaults row c = false) :
    insertMany table columns rows defaults =
      .ok ⟨insertText table columns rows defaults, boundValues columns rows⟩ := by
  rw [insertMany, if_neg (by simpa using some_), insertRows_of_complete 0 1 h, ← values_grid 1]
  delta insertText
  rw [← tuples_grid]
  rfl

theorem insertMany_error_iff {e : WriteError} : insertMany table columns rows defaults = .error e ↔
    rows = [] ∧ e = .noRows table ∨
      ∃ i column, FirstLack columns defaults rows i column ∧ e = .missingColumn i table column := by
  unfold insertMany
  split
  · next hnone =>
      obtain rfl : rows = [] := by simpa using hnone
      have hno (i : Nat) (column : String) : ¬ FirstLack columns defaults [] i column := by
        rintro ⟨before, row, after, hrows, -⟩
        simp at hrows
      simp [hno, eq_comm]
  · next hsome =>
      have hrows : rows ≠ [] := by simpa using hsome
      rw [error_of_bind_pure, insertRows_error_iff]
      simp [hrows]

/-- Rows are inserted unless there are none or one of them lacks something; the first that does, and the
first column that it lacks, are named. Otherwise the cell of row `i` and column `j` has the placeholder
`i * m + j + 1`, where `m` is the number of columns, and the row's value is bound there. -/
theorem rows_laid_out (table : String) (columns : List String) (rows : List Row) (defaults : Row) :
    ((∃ e, insertMany table columns rows defaults = .error e) ↔
      rows = [] ∨ ∃ row ∈ rows, ∃ column ∈ columns, lacks defaults row column = true) ∧
    (∀ e, insertMany table columns rows defaults = .error e ↔
      rows = [] ∧ e = .noRows table ∨
        ∃ i column, FirstLack columns defaults rows i column ∧ e = .missingColumn i table column) ∧
    (rows ≠ [] → (∀ row ∈ rows, ∀ column ∈ columns, lacks defaults row column = false) →
      ∃ st, insertMany table columns rows defaults = .ok st ∧
        st.sql = insertText table columns rows defaults ∧
        st.params.length = rows.length * columns.length ∧
        ∀ i row j column, rows[i]? = some row → columns[j]? = some column →
          st.params[i * columns.length + j]? = some (boundValue row column)) := by
  refine ⟨⟨?_, ?_⟩, fun e => insertMany_error_iff, fun hsome hcomplete => ?_⟩
  · rintro ⟨e, he⟩
    obtain ⟨hnone, -⟩ | ⟨i, column, ⟨before, row, after, rfl, -, -, hfirst⟩, -⟩ :=
      insertMany_error_iff.mp he
    · exact .inl hnone
    · exact .inr ⟨row, by simp, column, List.mem_of_find?_eq_some hfirst, List.find?_some hfirst⟩
  · rintro (hnone | hlacking)
    · exact ⟨_, insertMany_error_iff.mpr (.inl ⟨hnone, rfl⟩)⟩
    · obtain ⟨i, column, hfirst⟩ := exists_firstLack hlacking
      exact ⟨_, insertMany_error_iff.mpr (.inr ⟨i, column, hfirst, rfl⟩)⟩
  · exact ⟨_, insertMany_of_complete hsome hcomplete, rfl, length_boundValues,
      fun i row j column hrow hcolumn => boundValues_at hrow hcolumn⟩

/-- A title with votes, and one without. -/
def votedRows : List Row :=
  [[(.text "votes", .int 3), (.text "title", .text "one")], [(.text "title", .text "two")]]

/-- Votes fall back to a default, so the second row lacks nothing; nothing is bound for its votes. -/
theorem rows_laid_out_voted :
    ∃ st, insertMany "posts" ["title", "votes"] votedRows [(.text "votes", .text "0")] = .ok st ∧
      st.sql = "INSERT INTO posts (title, votes) VALUES ($1, COALESCE($2, 0)), ($3, COALESCE($4, 0)) "
        ++ "RETURNING *" ∧
      st.params.length = 4 ∧ st.params[3]? = some .null := by
  obtain ⟨-, -, hgood⟩ := rows_laid_out "posts" ["title", "votes"] votedRows [(.text "votes", .text "0")]
  obtain ⟨st, hst, hsql, hlength, hat⟩ := hgood (by decide) (by decide)
  refine ⟨st, hst, hsql.trans (by decide +kernel), hlength, ?_⟩
  exact hat 1 _ 1 "votes" rfl rfl

end TableLoom.Statement
