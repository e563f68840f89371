import TableLoom.Proofs.Schema.Acceptance

/-!
The far columns of relationships. A relationship may name a column of the table that it leads to, and no
rule looks at that column: an examination finds the same whichever columns are named.
-/

namespace TableLoom.Schema

/-- A relationship to another column of the same table. -/
def Relationship.aimed (far : Relationship → String) (rel : Relationship) : Relationship :=
  { rel with references := { rel.references with column := far rel } }

def Table.aimed (far : Relationship → String) (t : Table) : Table :=
  { t with relationships := t.relationships.map (Relationship.aimed far) }

def Merged.aimed (far : Relationship → String) (m : Merged) : Merged :=
  { m with table := m.table.aimed far }

def Fragment.aimed (far : Relationship → String) (f : Fragment) : Fragment :=
  { f with relationships := f.relationships.map (Relationship.aimed far) }

variable (far : String → Relationship → String)

def Entry.aimed (e : Entry) : Entry :=
  { e with fragments := e.fragments.map (Fragment.aimed (far e.table)) }

def Subject.aimed (s : Subject) : Subject :=
  { s with merged := s.merged.map (Merged.aimed (far s.name)) }

def Known.aimed (known : Known) : Known :=
  known.map fun k => (k.1, k.2.map (Table.aimed (far k.1)))

/-- The registry with the far columns of all relationships replaced, whatever they were. -/
def Registry.aimed (r : Registry) : Registry :=
  { r with
    entries := r.entries.map (Entry.aimed far)
    distinct := by
      have hnames : (fun e : Entry => (e.aimed far).table) = (·.table) := rfl
      simpa [List.map_map, Function.comp_def, hnames] using r.distinct }

namespace Rules

theorem isJunction_aimed (far : Relationship → String) (junction : Table) (owner : String) :
    isJunction (junction.aimed far) owner = isJunction junction owner := by
  unfold isJunction refersTo refersElsewhere Table.aimed
  simp only [List.any_map]
  rfl

theorem has_aimed (known : Known) (name : String) : (known.aimed far).has name = known.has name := by
  unfold Known.has Known.aimed
  rw [List.any_map]
  rfl

theorem table?_aimed (known : Known) (name : String) :
    (known.aimed far).table? name = (known.table? name).map (Table.aimed (far name)) := by
  unfold Known.table? Known.aimed
  induction known with
  | nil => rfl
  | cons k rest ih =>
    rw [List.map_cons, List.lookup_cons, List.lookup_cons]
    by_cases hk : name = k.1
    · simp [hk]
    · simpa [beq_false_of_ne hk] using ih

theorem oneRelationship_aimed (far' : Relationship → String) (t : Table) (known : Known)
    (members : List String) (rel : Relationship) :
    oneRelationship (t.aimed far') (known.aimed far) members (rel.aimed far') =
      oneRelationship t known members rel := by
  have htable : (known.aimed far).table? (rel.aimed far').references.table =
      (known.table? rel.references.table).map (Table.aimed (far rel.references.table)) :=
    table?_aimed far known rel.references.table
  have hcardinality : (rel.aimed far').cardinality = rel.cardinality := rfl
  unfold oneRelationship
  refine congrArg₂ (· ++ ·) rfl ?_
  rw [htable, hcardinality]
  cases rel.cardinality with
  | manyToMany =>
    cases known.table? rel.references.table with
    | none => rfl
    | some junction =>
      change when (!isJunction (junction.aimed _) t.name) _ = _
      rw [isJunction_aimed]
      rfl
  | _ => rfl

theorem scanRelationships_aimed (far' : Relationship → String) (t : Table) (known : Known)
    (members : List String) (rels : List Relationship) :
    scanRelationships (t.aimed far') (known.aimed far) members (rels.map (Relationship.aimed far')) =
      scanRelationships t known members rels := by
  induction rels generalizing members with
  | nil => rfl
  | cons rel rest ih =>
    have hhas : (known.aimed far).has (rel.aimed far').references.table = known.has rel.references.table :=
      has_aimed far known _
    rw [List.map_cons, scanRelationships, scanRelationships, hhas, oneRelationship_aimed]
    change (if _ then _ ++ scanRelationships _ _ (rel.member :: members) _ else _) = _
    rw [ih, ih]
    rfl

end Rules

theorem violations_aimed (far' : Relationship → String) (t : Table) (known : Known) :
    (t.aimed far').violations (known.aimed far) = t.violations known := by
  have hrelationships : Rules.relationships (t.aimed far') (known.aimed far) = Rules.relationships t known :=
    Rules.scanRelationships_aimed far far' t known t.fieldNames t.relationships
  simp only [Table.violations, Rules.all, List.flatMap_cons, hrelationships]
  rfl

theorem merge_aimed (e : Entry) : (e.aimed far).merge = e.merge.map (Merged.aimed (far e.table)) := by
  have hsame {α : Type} (part : Fragment → List α)
      (h : ∀ f : Fragment, part (f.aimed (far e.table)) = part f) :
      (e.aimed far).fragments.flatMap part = e.fragments.flatMap part := by
    rw [Entry.aimed, List.flatMap_map]
    exact congrArg (List.flatMap · e.fragments) (funext h)
  have hname : chosenName (e.aimed far).fragments = chosenName e.fragments := by
    rw [chosenName, Entry.aimed, List.findSome?_map]
    rfl
  have hrelationships : (e.aimed far).fragments.flatMap (·.relationships) =
      (e.fragments.flatMap (·.relationships)).map (Relationship.aimed (far e.table)) := by
    rw [Entry.aimed, List.flatMap_map, List.map_flatMap]
    rfl
  have herrors : (e.aimed far).errors = e.errors := rfl
  unfold Entry.merge
  rw [herrors]
  cases e.errors with
  | cons error rest => rfl
  | nil =>
    dsimp only
    rw [hsame Fragment.declarations fun _ => rfl, hsame (·.alters) fun _ => rfl,
      hsame (·.indexes) fun _ => rfl, hname, hrelationships]
    cases clash? [] (e.fragments.flatMap Fragment.declarations) with
    | some found => rfl
    | none => rfl

theorem ofEntry_aimed (e : Entry) : Subject.ofEntry (e.aimed far) = (Subject.ofEntry e).aimed far := by
  unfold Subject.ofEntry Subject.aimed
  rw [merge_aimed]
  cases e.merge with
  | error error => rfl
  | ok m => rfl

namespace Subject

theorem table?_aimed (s : Subject) : (s.aimed far).table? = s.table?.map (Table.aimed (far s.name)) := by
  unfold table? aimed
  cases s.merged <;> rfl

theorem isRejected_aimed (s : Subject) : (s.aimed far).isRejected = s.isRejected := rfl

theorem add_aimed (s : Subject) (vs : List Violation) : (s.add vs).aimed far = (s.aimed far).add vs := rfl

end Subject

namespace Examination

theorem known_aimed (ss : List Subject) : known (ss.map (Subject.aimed far)) = (known ss).aimed far := by
  unfold known Known.aimed
  rw [List.map_map, List.map_map]
  exact List.map_congr_left fun s _ => congrArg (Prod.mk s.name) (s.table?_aimed far)

theorem applyRules_aimed (known : Known) (owners : List (String × String)) (ss : List Subject) :
    applyRules (known.aimed far) owners (ss.map (Subject.aimed far)) =
      (applyRules known owners ss).map (Subject.aimed far) := by
  induction ss generalizing owners with
  | nil => rfl
  | cons s rest ih =>
    rw [List.map_cons, applyRules, applyRules, Subject.table?_aimed]
    cases s.table? with
    | none => exact congrArg (s.aimed far :: ·) (ih owners)
    | some t =>
      simp only [Option.map_some, violations_aimed, List.map_cons, Subject.add_aimed]
      exact congrArg _ (ih _)

theorem dependency?_aimed (far' : Relationship → String) (rejected : List String) (t : Table) :
    dependency? rejected (t.aimed far') = (dependency? rejected t).map (Relationship.aimed far') := by
  unfold dependency? Table.aimed
  rw [List.find?_map]
  rfl

theorem sweep_aimed (rejected : List String) (ss : List Subject) :
    sweep rejected (ss.map (Subject.aimed far)) =
      ((sweep rejected ss).1.map (Subject.aimed far), (sweep rejected ss).2) := by
  induction ss generalizing rejected with
  | nil => rfl
  | cons s rest ih =>
    have hdrawn : ((s.aimed far).table?.bind fun t => (dependency? rejected t).map fun r =>
        Violation.dependsOnRejected (s.aimed far).name r.column r.references.table) =
        s.table?.bind fun t => (dependency? rejected t).map fun r =>
          .dependsOnRejected s.name r.column r.references.table := by
      rw [Subject.table?_aimed]
      cases s.table? with
      | none => rfl
      | some t =>
        simp only [Option.map_some, Option.bind_some, dependency?_aimed, Option.map_map]
        rfl
    rw [List.map_cons, sweep, sweep, hdrawn]
    have hname : (s.aimed far).name = s.name := rfl
    simp only [hname, ih]
    split
    · rfl
    · rfl

theorem cascade_aimed (fuel : Nat) (rejected : List String) (ss : List Subject) :
    cascade fuel rejected (ss.map (Subject.aimed far)) =
      (cascade fuel rejected ss).map (Subject.aimed far) := by
  induction fuel generalizing rejected ss with
  | zero => rfl
  | succ fuel ih =>
    rw [cascade, cascade, sweep_aimed]
    dsimp only
    split
    · rfl
    · exact ih _ _

end Examination

/-- The examination of a registry and that with other far columns differ in these columns alone. -/
theorem examine_aimed (r : Registry) :
    (r.aimed far).examine.subjects = r.examine.subjects.map (Subject.aimed far) := by
  have hmerged : (r.aimed far).entries.map Subject.ofEntry =
      (r.entries.map Subject.ofEntry).map (Subject.aimed far) := by
    rw [Registry.aimed, List.map_map, List.map_map]
    exact List.map_congr_left fun e _ => ofEntry_aimed far e
  unfold Registry.examine
  dsimp only
  rw [hmerged, Examination.known_aimed, Examination.applyRules_aimed, List.filter_map, List.map_map,
    List.length_map, Examination.cascade_aimed]
  rfl

/-- The accepted tables of a registry and those of it with other far columns differ in these alone. -/
theorem Registry.tables_aimed (r : Registry) :
    (r.aimed far).examine.tables = r.examine.tables.map fun t => t.aimed (far t.name) := by
  unfold Examination.tables
  rw [examine_aimed, List.filter_map, List.filterMap_map, List.map_filterMap]
  refine List.filterMap_congr fun s hs => ?_
  obtain ⟨hs, hleft⟩ := List.mem_filter.mp hs
  obtain ⟨e, -, m, -, htable, hname, -⟩ := Registry.table?_of_left hs ((Bool.not_eq_true' _).mp hleft)
  rw [Function.comp_apply, Subject.table?_aimed, htable, Option.map_some, Option.map_some, hname]

end TableLoom.Schema
