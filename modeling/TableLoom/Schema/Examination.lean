import TableLoom.Log
import TableLoom.Schema.Merge
import TableLoom.Schema.Rules

/-!
The examination of all tables together. A table with an error of its own is rejected, and so is every
table from which relationships lead to a rejected one.
-/

namespace TableLoom.Schema

/-- A table under examination. -/
structure Subject where
  name : String
  merged : Except MergeError Merged
  violations : List Violation := []

namespace Subject

def table? (s : Subject) : Option Table :=
  s.merged.toOption.map (·.table)

def findings (s : Subject) : Findings :=
  s.violations.map Violation.finding

def isRejected (s : Subject) : Bool :=
  s.violations.any (·.severity == .error)

def mergeViolations (table : String) : Except MergeError Merged → List Violation
  | .ok _ => []
  | .error (.malformed e) => [.malformed table e.source e.reason]
  | .error (.declaredTwice t f sources) =>
    [.declaredTwice t f sources (MergeError.declaredTwice t f sources).message]

def ofEntry (e : Entry) : Subject :=
  { name := e.table, merged := e.merge, violations := mergeViolations e.table e.merge }

def add (s : Subject) (vs : List Violation) : Subject :=
  { s with violations := s.violations ++ vs }

end Subject

namespace Examination

/-- What is known of all tables once they are merged. -/
def known (subjects : List Subject) : Known :=
  subjects.map fun s => (s.name, s.table?)

/-- The violation of the second table with one record name, given the owners of the names so far. -/
def recordClash (owners : List (String × String)) (t : Table) : List Violation :=
  match owners.lookup t.recordName with
  | some owner => [.repeatedRecord t.name t.recordName owner]
  | none => []

/-- Applies the rules to every table that could be merged. -/
def applyRules (known : Known) (owners : List (String × String)) : List Subject → List Subject
  | [] => []
  | s :: rest =>
    match s.table? with
    | none => s :: applyRules known owners rest
    | some t =>
      let clash := recordClash owners t
      let owners := if clash.isEmpty then (t.recordName, t.name) :: owners else owners
      s.add (t.violations known ++ clash) :: applyRules known owners rest

/-- A relationship of a table that leads to a rejected one. -/
def dependency? (rejected : List String) (t : Table) : Option Relationship :=
  t.relationships.find? fun r => rejected.contains r.references.table

/-- Goes through the tables once; a table rejected on the way counts for those after it. -/
def sweep (rejected : List String) : List Subject → List Subject × List String
  | [] => ([], rejected)
  | s :: rest =>
    let violation? : Option Violation :=
      if rejected.contains s.name then none
      else s.table?.bind fun t => (dependency? rejected t).map fun r =>
        .dependsOnRejected s.name r.column r.references.table
    match violation? with
    | none =>
      let (rest, rejected) := sweep rejected rest
      (s :: rest, rejected)
    | some v =>
      let (rest, rejected) := sweep (rejected ++ [s.name]) rest
      (s.add [v] :: rest, rejected)

/-- Sweeps until nothing changes. Every sweep but the last rejects a table, so as many sweeps as there
are tables are enough. -/
def cascade : Nat → List String → List Subject → List Subject
  | 0, _, subjects => subjects
  | fuel + 1, rejected, subjects =>
    let (subjects, now) := sweep rejected subjects
    if now.length == rejected.length then subjects else cascade fuel now subjects

end Examination

/-- The outcome for all tables, in the order of the registry. -/
structure Examination where
  subjects : List Subject

namespace Examination

def rejected (e : Examination) : List String :=
  (e.subjects.filter Subject.isRejected).map (·.name)

def accepted (e : Examination) : List String :=
  (e.subjects.filter fun s => !s.isRejected).map (·.name)

/-- The accepted tables themselves. -/
def tables (e : Examination) : List Table :=
  (e.subjects.filter fun s => !s.isRejected).filterMap Subject.table?

def isValid (e : Examination) : Bool := e.rejected.isEmpty

end Examination

/-- Merges and examines every table. -/
def Registry.examine (r : Registry) : Examination :=
  let merged := r.entries.map Subject.ofEntry
  let examined := Examination.applyRules (Examination.known merged) [] merged
  let rejected := (examined.filter Subject.isRejected).map (·.name)
  { subjects := Examination.cascade examined.length rejected examined }

/-- The notes on merging one table. -/
def Entry.mergeNotes (e : Entry) : List Log.Entry :=
  match e.merge with
  | .error _ => []
  | .ok m =>
    m.ignored.map (fun f => Log.warning "registry"
        s!"Table '{e.table}': ignoring alter for unknown field '{f.name}'.")
      ++ [Log.debug "registry" s!"Merged {m.table.describe} from {e.fragments.length} fragment(s)"]

/-- The notes on making all tables one after the other. -/
def Registry.schemaNotes (r : Registry) : List Log.Entry :=
  (r.entries.take r.schemas.1.length).flatMap Entry.mergeNotes

/-- The notes on an examination: of the merging, of the rules, and of what is rejected. -/
def Registry.examinationNotes (r : Registry) : List Log.Entry :=
  let merged := r.entries.map Subject.ofEntry
  let known := Examination.known merged
  let e := r.examine
  let ruled (t : Table) : Log.Entry :=
    let findings := (t.violations known).map Violation.finding
    Log.debug "validators" s!"Validated table '{t.name}': {Findings.summary findings}"
  let rejection (s : Subject) : Log.Entry :=
    Log.warning "validators" (s!"Table '{s.name}' rejected: "
      ++ Text.join "; " (s.findings.errors.map (·.code)))
  r.entries.flatMap Entry.mergeNotes ++ (merged.filterMap Subject.table?).map ruled
    ++ (e.subjects.filter Subject.isRejected).map rejection
    ++ [Log.info "validators"
      s!"Validation complete: {e.accepted.length} accepted, {e.rejected.length} rejected."]

end TableLoom.Schema
