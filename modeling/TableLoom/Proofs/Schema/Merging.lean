import Mathlib.Data.List.Nodup
import TableLoom.Schema.Merge
import TableLoom.Schema.Rules

/-!
A merge compared with what it stands for: the fields that the fragments declare, one after the other,
each replaced by the last alter of its name. It fails exactly when a name is declared twice, and it
depends on the declarations alone, however they are spread over fragments.
-/

namespace TableLoom.Schema

/-- The last of several fields with a name. -/
def lastNamed (fields : List Field) (name : String) : Option Field :=
  (fields.filter (·.name == name)).getLast?

theorem lastNamed_cons (f : Field) (rest : List Field) (name : String) :
    lastNamed (f :: rest) name =
      (lastNamed rest name).or (if f.name = name then some f else none) := by
  unfold lastNamed
  by_cases h : f.name = name
  · rw [List.filter_cons_of_pos (by simpa using h), List.getLast?_cons]
    cases (rest.filter (·.name == name)).getLast? with
    | none => simp [h]
    | some last => simp
  · rw [List.filter_cons_of_neg (by simpa using h)]
    simp [h]

theorem name_of_lastNamed {fields : List Field} {name : String} {f : Field}
    (h : lastNamed fields name = some f) : f.name = name := by
  have hmem := List.mem_of_getLast? h
  simpa using (List.mem_filter.mp hmem).2

/-- Alters that are left out by name do not matter for the names that are kept. -/
theorem lastNamed_filter {fields : List Field} {name : String} {keep : Field → Bool}
    (h : ∀ f ∈ fields, f.name = name → keep f = true) :
    lastNamed (fields.filter keep) name = lastNamed fields name := by
  unfold lastNamed
  rw [List.filter_filter]
  apply congrArg
  apply List.filter_congr
  intro f hf
  by_cases hname : f.name = name
  · simp [hname, h f hf hname]
  · simp [hname]

/-- A field with the last alter of its name in its place. -/
def overridden (alters : List Field) (f : Field) : Field :=
  (lastNamed alters f.name).getD f

theorem name_overridden (alters : List Field) (f : Field) : (overridden alters f).name = f.name := by
  unfold overridden
  cases h : lastNamed alters f.name with
  | none => rfl
  | some a => exact name_of_lastNamed h

theorem foldl_applyAlter (alters fields : List Field) :
    alters.foldl applyAlter fields = fields.map (overridden alters) := by
  induction alters generalizing fields with
  | nil =>
      have hid : overridden [] = id := rfl
      simp [hid]
  | cons a rest ih =>
      rw [List.foldl_cons, ih, applyAlter, List.map_map]
      apply List.map_congr_left
      intro f _
      unfold overridden
      rw [lastNamed_cons]
      by_cases h : f.name = a.name
      · simp only [Function.comp_apply, h, beq_self_eq_true, ↓reduceIte]
        cases lastNamed rest a.name with
        | none => rfl
        | some b => rfl
      · simp only [Function.comp_apply, beq_iff_eq, h, ↓reduceIte, Ne.symm h, Option.or_none]

/-- The first declaration that repeats a name, and the one that it repeats. -/
def Clash (ds : List Declared) (earlier later : Declared) : Prop :=
  ∃ before between after, ds = before ++ earlier :: between ++ later :: after ∧
    earlier.field.name = later.field.name ∧
    ((before ++ earlier :: between).map (·.field.name)).Nodup

/-- The repeated field is found in the fields alone, wherever they come from. -/
theorem Clash.transfer {ds ds' : List Declared} {earlier later : Declared}
    (h : Clash ds earlier later) (same : ds'.map (·.field) = ds.map (·.field)) :
    ∃ earlier' later', Clash ds' earlier' later' ∧ later'.field = later.field := by
  obtain ⟨before, between, after, rfl, hname, hdistinct⟩ := h
  rw [List.map_append, List.map_append, List.map_cons, List.map_cons] at same
  obtain ⟨front, tail, rfl, hfront, htail⟩ := List.map_eq_append_iff.mp same
  obtain ⟨before', middle, rfl, hbefore, hmiddle⟩ := List.map_eq_append_iff.mp hfront
  obtain ⟨earlier', between', rfl, hearlier, hbetween⟩ := List.map_eq_cons_iff.mp hmiddle
  obtain ⟨later', after', rfl, hlater, _⟩ := List.map_eq_cons_iff.mp htail
  refine ⟨earlier', later', ⟨before', between', after', rfl, ?_, ?_⟩, hlater⟩
  · rw [hearlier, hlater]
    exact hname
  · have hsame : (before' ++ earlier' :: between').map (·.field) =
        (before ++ earlier :: between).map (·.field) := by
      rw [List.map_append, List.map_append, List.map_cons, List.map_cons, hbefore, hearlier,
        hbetween]
    have hnames := congrArg (List.map (·.name)) hsame
    rw [List.map_map, List.map_map] at hnames
    exact (congrArg List.Nodup hnames).mpr hdistinct

theorem find?_eq_none_of_fresh {seen : List Declared} {d : Declared}
    (fresh : d.field.name ∉ seen.map (·.field.name)) :
    seen.find? (·.field.name == d.field.name) = none := by
  rw [List.find?_eq_none]
  intro d' hd' hname
  rw [beq_iff_eq] at hname
  exact fresh (hname ▸ List.mem_map_of_mem hd')

theorem nodup_push {seen : List Declared} {d : Declared}
    (distinct : (seen.map (·.field.name)).Nodup)
    (fresh : d.field.name ∉ seen.map (·.field.name)) :
    ((seen ++ [d]).map (·.field.name)).Nodup := by
  rw [List.map_append, List.map_singleton]
  exact distinct.append (List.nodup_singleton _) (List.disjoint_singleton.mpr fresh)

theorem clash?_of_nodup {seen ds : List Declared}
    (h : ((seen ++ ds).map (·.field.name)).Nodup) : clash? seen ds = none := by
  induction ds generalizing seen with
  | nil => rfl
  | cons d rest ih =>
      have hnext : ((seen ++ [d] ++ rest).map (·.field.name)).Nodup := by
        rwa [List.append_assoc, List.singleton_append]
      have hfresh : d.field.name ∉ seen.map (·.field.name) := by
        rw [List.map_append, List.nodup_append] at h
        exact fun hmem => h.2.2 _ hmem _ (by simp) rfl
      rw [clash?, find?_eq_none_of_fresh hfresh]
      exact ih hnext

theorem clash?_eq_some {seen between after : List Declared} {earlier later : Declared}
    (distinct : ((seen ++ between).map (·.field.name)).Nodup) (mem : earlier ∈ seen ++ between)
    (same : earlier.field.name = later.field.name) :
    clash? seen (between ++ later :: after) =
      some (later.field.name, [earlier.origin, later.origin]) := by
  induction between generalizing seen with
  | nil =>
      rw [List.append_nil] at mem distinct
      have hfind : seen.find? (·.field.name == later.field.name) = some earlier := by
        cases h : seen.find? (·.field.name == later.field.name) with
        | none => exact absurd same (by simpa using List.find?_eq_none.mp h earlier mem)
        | some d =>
            have hname : d.field.name = later.field.name := by simpa using List.find?_some h
            have hmem := List.mem_of_find?_eq_some h
            rw [List.inj_on_of_nodup_map distinct hmem mem (hname.trans same.symm)]
      rw [List.nil_append, clash?, hfind]
  | cons d rest ih =>
      have hnext : ((seen ++ [d] ++ rest).map (·.field.name)).Nodup := by
        rwa [List.append_assoc, List.singleton_append]
      have hfresh : d.field.name ∉ seen.map (·.field.name) := by
        rw [List.map_append, List.nodup_append] at distinct
        exact fun hmem => distinct.2.2 _ hmem _ (by simp) rfl
      rw [List.cons_append, clash?, find?_eq_none_of_fresh hfresh]
      exact ih hnext (by simpa using mem)

theorem exists_clash {seen ds : List Declared} (distinct : (seen.map (·.field.name)).Nodup)
    (repeats : ¬ ((seen ++ ds).map (·.field.name)).Nodup) :
    ∃ earlier later, Clash (seen ++ ds) earlier later := by
  induction ds generalizing seen with
  | nil => exact absurd distinct (by rwa [List.append_nil] at repeats)
  | cons d rest ih =>
      by_cases hfresh : d.field.name ∈ seen.map (·.field.name)
      · obtain ⟨earlier, hmem, hname⟩ := List.mem_map.mp hfresh
        obtain ⟨before, between, rfl⟩ := List.append_of_mem hmem
        exact ⟨earlier, d, before, between, rest, rfl, hname, distinct⟩
      · have hsplit : seen ++ d :: rest = seen ++ [d] ++ rest := by simp
        rw [hsplit] at repeats ⊢
        exact ih (nodup_push distinct hfresh) repeats

theorem clash?_of_clash {ds : List Declared} {earlier later : Declared}
    (h : Clash ds earlier later) :
    clash? [] ds = some (later.field.name, [earlier.origin, later.origin]) := by
  obtain ⟨before, between, after, rfl, hname, hdistinct⟩ := h
  rw [List.append_assoc, ← List.append_assoc]
  exact clash?_eq_some hdistinct (by simp) hname

theorem mem_scan {α β : Type} {name : α → String} {test : List String → α → List β}
    {seen : List String} {items : List α} {b : β} (h : b ∈ scan name test seen items) :
    ∃ before a after, items = before ++ a :: after ∧
      b ∈ test ((before.map name).reverse ++ seen) a := by
  induction items generalizing seen with
  | nil => simp [scan] at h
  | cons a rest ih =>
      rw [scan, List.mem_append] at h
      rcases h with h | h
      · exact ⟨[], a, rest, rfl, h⟩
      · obtain ⟨before, a', after, rfl, hb⟩ := ih h
        exact ⟨a :: before, a', after, rfl, by simpa using hb⟩

@[simp] theorem mem_when {broken : Bool} {v w : Violation} :
    v ∈ Rules.when broken w ↔ broken = true ∧ v = w := by
  cases broken with
  | false => simp [Rules.when]
  | true => simp [Rules.when]

theorem fields_not_repeated {t : Table} {known : Known} {v : Violation}
    (distinct : (t.fields.map (·.name)).Nodup) (hv : v ∈ Rules.fields t known) :
    v.code ≠ "DUPLICATE_FIELD" := by
  unfold Rules.fields at hv
  rw [List.mem_append] at hv
  rcases hv with hv | hv
  · obtain ⟨before, f, after, hfields, hf⟩ := mem_scan hv
    rw [hfields, List.map_append, List.nodup_append] at distinct
    have hfresh : f.name ∉ before.map Field.name :=
      fun h => distinct.2.2 _ h _ (by simp) rfl
    rw [Rules.oneField, List.mem_append, mem_when, mem_when] at hf
    rcases hf with ⟨hseen, _⟩ | ⟨_, rfl⟩
    · rw [List.append_nil, List.contains_eq_mem, decide_eq_true_eq, List.mem_reverse] at hseen
      exact absurd hseen hfresh
    · simp [Violation.code]
  · obtain ⟨_, rfl⟩ := mem_when.mp hv
    simp [Violation.code]

namespace Entry

/-- The declarations of all fragments, one fragment after the other. -/
def declarations (e : Entry) : List Declared := e.fragments.flatMap Fragment.declarations

/-- The fields that are declared. -/
def base (e : Entry) : List Field := e.fragments.flatMap (·.fields)

/-- The alters, in the order in which they came. -/
def alters (e : Entry) : List Field := e.fragments.flatMap (·.alters)

theorem fields_declarations (e : Entry) : e.declarations.map (·.field) = e.base := by
  unfold declarations base
  rw [List.map_flatMap]
  apply List.flatMap_congr
  intro f _
  unfold Fragment.declarations
  rw [List.map_map]
  exact List.map_id f.fields

theorem names_declarations (e : Entry) :
    e.declarations.map (·.field.name) = e.base.map (·.name) := by
  rw [← fields_declarations, List.map_map]
  rfl

/-- What the contributions amount to. -/
structure Amounts (e : Entry) (m : Merged) : Prop where
  name : m.table.name = e.table
  names : m.table.fields.map (·.name) = e.base.map (·.name)
  distinct : (m.table.fields.map (·.name)).Nodup
  fields : m.table.fields = e.base.map fun f => (lastNamed e.alters f.name).getD f
  alters : m.table.alters = e.alters.filter fun a => a.name ∈ e.base.map (·.name)
  ignored : m.ignored = e.alters.filter fun a => a.name ∉ e.base.map (·.name)
  relationships : m.table.relationships = e.fragments.flatMap (·.relationships)
  indexes : m.table.indexes = e.fragments.flatMap (·.indexes)
  structName : m.table.structName = (e.fragments.filterMap (·.structName)).find? (· ≠ "")

theorem Amounts.unique {e : Entry} {m m' : Merged} (h : e.Amounts m) (h' : e.Amounts m') :
    m = m' := by
  obtain ⟨⟨name, structName, fields, relationships, indexes, alters⟩, ignored⟩ := m
  obtain ⟨⟨name', structName', fields', relationships', indexes', alters'⟩, ignored'⟩ := m'
  congr
  · exact h.name.trans h'.name.symm
  · exact h.structName.trans h'.structName.symm
  · exact h.fields.trans h'.fields.symm
  · exact h.relationships.trans h'.relationships.symm
  · exact h.indexes.trans h'.indexes.symm
  · exact h.alters.trans h'.alters.symm
  · exact h.ignored.trans h'.ignored.symm

theorem chosenName_eq (fragments : List Fragment) :
    chosenName fragments = (fragments.filterMap (·.structName)).find? (· ≠ "") := by
  induction fragments with
  | nil => rfl
  | cons f rest ih =>
      unfold chosenName at ih ⊢
      rw [List.findSome?_cons, ih]
      rw [List.filterMap_cons]
      cases hname : f.structName with
      | none => rfl
      | some name =>
          simp only [List.find?_cons]
          by_cases hempty : name = ""
          · subst hempty
            rfl
          · have hfilter : (some name).filter (fun s => !s.isEmpty) = some name := by
              simp [Option.filter, hempty]
            simp [hfilter, hempty]

theorem any_name_eq (fields : List Field) (a : Field) :
    fields.any (·.name == a.name) = decide (a.name ∈ fields.map (·.name)) := by
  rw [Bool.eq_iff_iff, List.any_eq_true, decide_eq_true_eq, List.mem_map]
  simp

/-- Without a name that is declared twice, the merge is what the contributions amount to. -/
theorem merge_of_nodup {e : Entry} (sound : e.errors = [])
    (distinct : (e.base.map (·.name)).Nodup) : ∃ m, e.merge = .ok m ∧ e.Amounts m := by
  have hclash : clash? [] (e.fragments.flatMap Fragment.declarations) = none := by
    apply clash?_of_nodup
    rw [List.nil_append]
    exact (names_declarations e).symm ▸ distinct
  have hfields := fields_declarations e
  unfold declarations at hfields
  unfold merge
  rw [sound]
  simp only [hclash, hfields, any_name_eq]
  have hfold : (e.alters.filter fun a => decide (a.name ∈ e.base.map (·.name))).foldl
      applyAlter e.base = e.base.map fun f => (lastNamed e.alters f.name).getD f := by
    rw [foldl_applyAlter]
    apply List.map_congr_left
    intro f hf
    unfold overridden
    rw [lastNamed_filter]
    intro a _ hname
    rw [decide_eq_true_eq, hname]
    exact List.mem_map_of_mem hf
  have hnames : (e.base.map fun f => (lastNamed e.alters f.name).getD f).map (·.name) =
      e.base.map (·.name) := by
    rw [List.map_map]
    apply List.map_congr_left
    intro f _
    exact name_overridden e.alters f
  have hall := (congrArg (List.map (·.name)) hfold).trans hnames
  refine ⟨_, rfl, ?_⟩
  exact {
    name := rfl
    names := hall
    distinct := (congrArg List.Nodup hall).mpr distinct
    fields := hfold
    alters := rfl
    ignored := by
      apply List.filter_congr
      intro a _
      rw [decide_not]
    relationships := rfl
    indexes := rfl
    structName := chosenName_eq e.fragments }

theorem merge_of_clash {e : Entry} {earlier later : Declared} (sound : e.errors = [])
    (h : Clash e.declarations earlier later) :
    e.merge = .error (.declaredTwice e.table later.field.name [earlier.origin, later.origin]) := by
  have hclash := clash?_of_clash h
  unfold declarations at hclash
  unfold merge
  rw [sound]
  simp only [hclash]

theorem exists_clash_of_repeat {e : Entry} (repeats : ¬ (e.base.map (·.name)).Nodup) :
    ∃ earlier later, Clash e.declarations earlier later := by
  rw [← names_declarations] at repeats
  have hnil : (([] : List Declared).map (·.field.name)).Nodup := List.nodup_nil
  exact exists_clash hnil repeats

theorem merge_ok_iff {e : Entry} (sound : e.errors = []) (m : Merged) :
    e.merge = .ok m ↔ (e.base.map (·.name)).Nodup ∧ e.Amounts m := by
  constructor
  · intro h
    by_cases hdistinct : (e.base.map (·.name)).Nodup
    · obtain ⟨m', hm', hamounts⟩ := merge_of_nodup sound hdistinct
      rw [h] at hm'
      cases hm'
      exact ⟨hdistinct, hamounts⟩
    · obtain ⟨earlier, later, hclash⟩ := exists_clash_of_repeat hdistinct
      rw [merge_of_clash sound hclash] at h
      exact absurd h (by simp)
  · rintro ⟨hdistinct, hamounts⟩
    obtain ⟨m', hm', hamounts'⟩ := merge_of_nodup sound hdistinct
    rw [hamounts.unique hamounts']
    exact hm'

theorem merge_error_iff {e : Entry} (sound : e.errors = []) (error : MergeError) :
    e.merge = .error error ↔ ∃ earlier later, Clash e.declarations earlier later ∧
      error = .declaredTwice e.table later.field.name [earlier.origin, later.origin] := by
  constructor
  · intro h
    have hrepeats : ¬ (e.base.map (·.name)).Nodup := by
      intro hdistinct
      obtain ⟨m, hm, _⟩ := merge_of_nodup sound hdistinct
      rw [h] at hm
      exact absurd hm (by simp)
    obtain ⟨earlier, later, hclash⟩ := exists_clash_of_repeat hrepeats
    rw [merge_of_clash sound hclash] at h
    exact ⟨earlier, later, hclash, (Except.error.inj h).symm⟩
  · rintro ⟨earlier, later, hclash, rfl⟩
    exact merge_of_clash sound hclash

/-- The same contributions, divided among other fragments. -/
structure Redivides (e e' : Entry) : Prop where
  table : e'.table = e.table
  base : e'.base = e.base
  alters : e'.alters = e.alters
  relationships : e'.fragments.flatMap (·.relationships) = e.fragments.flatMap (·.relationships)
  indexes : e'.fragments.flatMap (·.indexes) = e.fragments.flatMap (·.indexes)
  structName : (e'.fragments.filterMap (·.structName)).find? (· ≠ "") =
    (e.fragments.filterMap (·.structName)).find? (· ≠ "")

theorem Redivides.amounts {e e' : Entry} {m : Merged} (h : e.Redivides e') (ha : e.Amounts m) :
    e'.Amounts m where
  name := h.table ▸ ha.name
  names := h.base ▸ ha.names
  distinct := ha.distinct
  fields := by rw [h.base, h.alters]; exact ha.fields
  alters := by rw [h.base, h.alters]; exact ha.alters
  ignored := by rw [h.base, h.alters]; exact ha.ignored
  relationships := h.relationships ▸ ha.relationships
  indexes := h.indexes ▸ ha.indexes
  structName := h.structName ▸ ha.structName

/-- A merge makes what the contributions amount to, and fails exactly when a name is declared twice:
at the first declaration that repeats one, with the origins of the two. Hence neither the table nor
the repeated field depends on how the contributions are divided into fragments, and no field of a
merged table is repeated. The registry is no part of what a merge makes, and stays as it was. -/
theorem merge_amounts (e : Entry) (sound : e.errors = []) :
    (∀ m, e.merge = .ok m ↔ (e.base.map (·.name)).Nodup ∧ e.Amounts m) ∧
    ((∃ error, e.merge = .error error) ↔ ¬ (e.base.map (·.name)).Nodup) ∧
    (∀ error, e.merge = .error error ↔ ∃ earlier later, Clash e.declarations earlier later ∧
      error = .declaredTwice e.table later.field.name [earlier.origin, later.origin]) ∧
    (∀ e' : Entry, e'.errors = [] → e.Redivides e' →
      (∀ m, e.merge = .ok m → e'.merge = .ok m) ∧
      ∀ field sources, e.merge = .error (.declaredTwice e.table field sources) →
        ∃ sources', e'.merge = .error (.declaredTwice e.table field sources')) ∧
    (∀ m, e.merge = .ok m → ∀ known, ∀ v ∈ Rules.fields m.table known,
      v.code ≠ "DUPLICATE_FIELD") := by
  refine ⟨merge_ok_iff sound, ?_, merge_error_iff sound, ?_, ?_⟩
  · constructor
    · rintro ⟨error, h⟩ hdistinct
      obtain ⟨m, hm, _⟩ := merge_of_nodup sound hdistinct
      rw [h] at hm
      exact absurd hm (by simp)
    · intro hrepeats
      obtain ⟨earlier, later, hclash⟩ := exists_clash_of_repeat hrepeats
      exact ⟨_, merge_of_clash sound hclash⟩
  · intro e' sound' hsame
    constructor
    · intro m hm
      obtain ⟨hdistinct, hamounts⟩ := (merge_ok_iff sound m).mp hm
      rw [merge_ok_iff sound', hsame.base]
      exact ⟨hdistinct, hsame.amounts hamounts⟩
    · intro field sources hm
      obtain ⟨earlier, later, hclash, heq⟩ := (merge_error_iff sound _).mp hm
      obtain ⟨_, rfl, _⟩ := MergeError.declaredTwice.inj heq
      have hfields : e'.declarations.map (·.field) = e.declarations.map (·.field) := by
        rw [fields_declarations, fields_declarations, hsame.base]
      obtain ⟨earlier', later', hclash', hfield⟩ := hclash.transfer hfields
      refine ⟨[earlier'.origin, later'.origin], ?_⟩
      rw [merge_of_clash sound' hclash', hsame.table, hfield]
  · intro m hm known v hv
    obtain ⟨_, hamounts⟩ := (merge_ok_iff sound m).mp hm
    exact fields_not_repeated hamounts.distinct hv

/-- A field of one fragment, altered twice by another that comes first. -/
theorem merge_amounts_altered :
    let title : Field := { name := "title", type := ⟨.text, false⟩ }
    let e : Entry :=
      { table := "posts"
        fragments :=
          [{ table := "posts"
             alters := [{ title with unique := true }, { title with redacted := true }] },
            { table := "posts", fields := [{ name := "id", type := ⟨.uuid, false⟩ }, title] }] }
    e.errors = [] ∧ ∃ m, e.merge = .ok m ∧ e.Amounts m ∧
      m.table.fields.map (·.redacted) = [false, true] := by
  intro title e
  refine ⟨rfl, _, rfl, ?_, by decide⟩
  exact (((merge_amounts e rfl).1 _).mp rfl).2

end Entry

end TableLoom.Schema
