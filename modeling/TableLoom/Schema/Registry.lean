import TableLoom.Check.Basic
import TableLoom.Schema.Reading

/-!
The fragments that describe tables, gathered by table. Tables keep the order in which they were first
named, and fragments the order in which they came.
-/

namespace TableLoom.Schema

open Check (Checked)

/-- How a fragment without a source is referred to. -/
def nowhere : String := "<memory>"

/-- A source as messages give it. -/
def sourceName (source : Option String) : String :=
  match source with
  | some s => if s.isEmpty then nowhere else s
  | none => nowhere

/-- A fragment that cannot be read, and the table that it would have been for, if that is known. -/
structure FragmentError where
  reason : String
  source : Option String := none
  table : Option String := none
  deriving DecidableEq

def FragmentError.message (e : FragmentError) : String :=
  s!"{sourceName e.source}: {e.reason}"

/-- A path's steps joined by points. -/
def stepText : Check.Step → String
  | .key name => name
  | .index i => toString i
  | .number n => toString n

def issueText (i : Check.Issue) : String :=
  let path := Text.join "." (i.path.map stepText)
  if path.isEmpty then i.flaw.message else s!"{path}: {i.flaw.message}"

/-- All flaws on one line. -/
def issuesText (issues : List Check.Issue) : String :=
  Text.join "; " (issues.map issueText)

/-- The table that a fragment says it is for. -/
def tableNamed? (data : Value) : Option String :=
  match data.get? "table_name" with
  | some (.text s) => if s.isEmpty then none else some s
  | _ => none

/-- A fragment read from data that came from a source. -/
def parseFragment (data : Value) (source : Option String) : Except FragmentError Fragment :=
  match readFragment data with
  | .fits f => .ok { f with source }
  | .flawed issues => .error { reason := issuesText issues, source, table := tableNamed? data }

/-- All that was contributed to one table. -/
structure Entry where
  table : String
  fragments : List Fragment := []
  errors : List FragmentError := []

def Entry.sources (e : Entry) : List String :=
  e.fragments.map fun f => sourceName f.source

/-- Changes the entry of a table, which is added at the end when there is none. -/
def changeEntry (table : String) (change : Entry → Entry) : List Entry → List Entry
  | [] => [change { table }]
  | e :: rest => if e.table == table then change e :: rest else e :: changeEntry table change rest

/-- A change that leaves the names alone adds at most the name of the changed table. -/
theorem tables_changeEntry (table : String) (change : Entry → Entry)
    (keeps : ∀ e, (change e).table = e.table) (es : List Entry) :
    (changeEntry table change es).map (·.table) =
      if table ∈ es.map (·.table) then es.map (·.table) else es.map (·.table) ++ [table] := by
  induction es with
  | nil => simp [changeEntry, keeps]
  | cons e rest ih =>
    by_cases h : e.table = table
    · simp [changeEntry, keeps, h]
    · simp only [changeEntry, beq_iff_eq, h, ↓reduceIte, List.map_cons, ih, List.mem_cons,
        Ne.symm h, false_or]
      split
      · rfl
      · rfl

theorem nodup_changeEntry (table : String) (change : Entry → Entry)
    (keeps : ∀ e, (change e).table = e.table) {es : List Entry}
    (distinct : (es.map (·.table)).Nodup) :
    ((changeEntry table change es).map (·.table)).Nodup := by
  rw [tables_changeEntry table change keeps]
  split
  · exact distinct
  · rename_i fresh
    rw [List.nodup_append]
    refine ⟨distinct, by simp, ?_⟩
    intro a ha b hb
    rw [List.mem_singleton] at hb
    rw [hb]
    intro heq
    exact fresh (heq ▸ ha)

/-- The contributions to all tables, one entry for each, and the errors that no table could be named
for. -/
structure Registry where
  entries : List Entry := []
  inputErrors : List FragmentError := []
  distinct : (entries.map (·.table)).Nodup := by simp

namespace Registry

def tables (r : Registry) : List String :=
  r.entries.map (·.table)

def entry? (r : Registry) (table : String) : Option Entry :=
  r.entries.find? (·.table == table)

/-- Adds a fragment to its table. -/
def register (r : Registry) (f : Fragment) : Registry :=
  let add (e : Entry) : Entry := { e with fragments := e.fragments ++ [f] }
  { r with
    entries := changeEntry f.table add r.entries
    distinct := nodup_changeEntry f.table add (fun _ => rfl) r.distinct }

/-- Records an error with its table, or beside all tables. -/
def recordError (r : Registry) (error : FragmentError) : Registry :=
  let add (e : Entry) : Entry := { e with errors := e.errors ++ [error] }
  match error.table.filter (!·.isEmpty) with
  | some table =>
    { r with
      entries := changeEntry table add r.entries
      distinct := nodup_changeEntry table add (fun _ => rfl) r.distinct }
  | none => { r with inputErrors := r.inputErrors ++ [error] }

def describe (r : Registry) : String :=
  s!"<SchemaRegistry {r.entries.length} tables, {r.inputErrors.length} input errors>"

end Registry

end TableLoom.Schema
