import TableLoom.Proofs.Query.Run

/-!
What a builder holds, item by item, and what each clause can bring. A clause never changes an item: it
adds some, or replaces the options of an include by those it brings.
-/

namespace TableLoom.Query

/-- Something that a clause puts into a builder. -/
inductive Item where
  | select (p : Phrase)
  | join (sql : String)
  | include_ (r : Relation) (o : IncludeOptions)
  | condition (c : Condition)
  | group (v : Value)
  | having (p : Phrase)
  | order (v : Value)

def Clauses.Has (c : Clauses) : Item → Prop
  | .select p => p ∈ c.selects
  | .join sql => sql ∈ c.joins
  | .include_ r o => (r, o) ∈ c.includes
  | .condition x => x ∈ c.conditions
  | .group v => v ∈ c.groupBy
  | .having p => p ∈ c.havings
  | .order v => v ∈ c.orderBy

inductive Clause.Brings (b : Binding) : Clause → Item → Prop
  | select {fields : List Value} {v : Value} {t : String} :
      v ∈ fields → readField b v = .ok t → Brings b (.select fields) (.select [.text t])
  | selectAggregate {aggregate column label : Value} {agg : Aggregate} {target name : String} :
      readTarget b column = .ok target → readAlias label = .ok name →
      Brings b (.selectAggregate aggregate column label)
        (.select [.text (s!"{agg.sql}({target})" ++ name)])
  | selectRaw {sql : Value} {params : List Value} {p : Phrase} :
      readRaw sql params = .ok p → Brings b (.selectRaw sql params) (.select p)
  | condition {link : Link} {column operator v : Value} {p : Phrase} :
      readCondition b column operator v = .ok p →
      Brings b (.condition link column operator v) (.condition ⟨link, p⟩)
  | rawCondition {link : Link} {sql : Value} {params : List Value} {p : Phrase} :
      readRaw sql params = .ok p → Brings b (.rawCondition link sql params) (.condition ⟨link, p⟩)
  | presence {query : Option Nat} :
      Brings b (.existence false query) (.condition ⟨.and, [.text "EXISTS (", embed query, .text ")"]⟩)
  | absence {query : Option Nat} :
      Brings b (.existence true query)
        (.condition ⟨.and, [.text "NOT EXISTS (", embed query, .text ")"]⟩)
  | subquery {column operator : Value} {query : Option Nat} {op : Operator} {name : String} :
      readColumn b column = .ok name → (op.isComparison || op.isMembership) = true →
      Brings b (.subquery column operator query)
        (.condition ⟨.and, [.text s!"{name} {op.sql} (", embed query, .text ")"]⟩)
  | join {table left right kind : Value} {sql : String} :
      readJoin table left right kind = .ok sql → Brings b (.join table left right kind) (.join sql)
  | include_ {relation : Value} {request : Option IncludeRequest} {r : Relation}
      {o : IncludeOptions} :
      readInclude b relation request = .ok (r, o) →
      Brings b (.include_ relation request) (.include_ r o)
  | groupBy {columns : List Value} {v : Value} {t : String} :
      v ∈ columns → readShaped Text.isColumnReference .groupReference v = .ok t →
      Brings b (.groupBy columns) (.group (.text t))
  | groupByRaw {v : Value} : Brings b (.groupByRaw v) (.group v)
  | having {sql : Value} {params : List Value} {p : Phrase} :
      readRaw sql params = .ok p → Brings b (.having sql params) (.having p)
  | havingAggregate {aggregate column operator v : Value} {agg : Aggregate} {op : Operator}
      {target : String} :
      readAggregate aggregate = .ok agg → readOperator operator = .ok op →
      readTarget b column = .ok target → op.isComparison = true →
      Brings b (.havingAggregate aggregate column operator v)
        (.having [.text s!"{agg.sql}({target}) {op.sql} ", .slot v])
  | orderBy {column direction : Value} {dir : Direction} {name : String} :
      readShaped Text.isColumnReference .orderReference column = .ok name →
      Brings b (.orderBy column direction) (.order (.text s!"{name} {dir.sql}"))
  | orderByRaw {v : Value} : Brings b (.orderByRaw v) (.order v)

theorem mem_addEach {read : Value → Except Fault String} {acc : List String} {vs : List Value}
    {s : String} (h : s ∈ (addEach read acc vs).1) : s ∈ acc ∨ ∃ v ∈ vs, read v = .ok s := by
  induction vs generalizing acc with
  | nil => exact .inl h
  | cons v rest ih =>
      rw [addEach] at h
      cases hread : read v with
      | error e =>
          rw [hread] at h
          exact .inl h
      | ok t =>
          rw [hread] at h
          rcases ih h with hacc | ⟨w, hw, hok⟩
          · rcases List.mem_append.mp hacc with hold | hnew
            · exact .inl hold
            · rw [List.mem_singleton.mp hnew]
              exact .inr ⟨v, List.mem_cons_self, hread⟩
          · exact .inr ⟨w, List.mem_cons_of_mem v hw, hok⟩

theorem mem_putInclude {r : Relation} {o : IncludeOptions} {xs : List (Relation × IncludeOptions)}
    {x : Relation × IncludeOptions} (h : x ∈ putInclude r o xs) : x = (r, o) ∨ x ∈ xs := by
  induction xs with
  | nil => exact .inl (List.mem_singleton.mp h)
  | cons y ys ih =>
      rw [putInclude] at h
      split at h
      · rcases List.mem_cons.mp h with hx | hx
        · exact .inl hx
        · exact .inr (List.mem_cons_of_mem y hx)
      · rcases List.mem_cons.mp h with rfl | hx
        · exact .inr List.mem_cons_self
        · exact (ih hx).imp id (List.mem_cons_of_mem y)

namespace Clauses

variable {c : Clauses} {b : Binding} {clause : Clause} {x : Item}

/-- A builder grows by what was read. -/
def Grows (c c' : Clauses) (brings : Item → Prop) : Prop :=
  ∀ x, c'.Has x → c.Has x ∨ brings x

theorem Grows.refl (c : Clauses) (brings : Item → Prop) : c.Grows c brings :=
  fun _ h => .inl h

theorem Grows.after {α : Type} {brings : Item → Prop} {read : Except Fault α} {use : α → Clauses}
    (h : ∀ a, read = .ok a → c.Grows (use a) brings) : c.Grows (c.after read use).1 brings := by
  unfold Clauses.after
  cases read with
  | error e => exact .refl c brings
  | ok a => exact h a rfl

theorem grows_selects {ps : List Phrase} {brings : Item → Prop}
    (h : ∀ p ∈ ps, brings (.select p)) : c.Grows { c with selects := c.selects ++ ps } brings := by
  intro x hx
  cases x with
  | select p => exact (List.mem_append.mp hx).imp id (h p)
  | _ => exact .inl hx

theorem grows_condition {x : Condition} {brings : Item → Prop} (h : brings (.condition x)) :
    c.Grows { c with conditions := c.conditions ++ [x] } brings := by
  intro y hy
  cases y with
  | condition z =>
      refine (List.mem_append.mp hy).imp id fun hz => ?_
      rw [List.mem_singleton.mp hz]
      exact h
  | _ => exact .inl hy

theorem grows_groups {vs : List Value} {brings : Item → Prop} (h : ∀ v ∈ vs, brings (.group v)) :
    c.Grows { c with groupBy := c.groupBy ++ vs } brings := by
  intro x hx
  cases x with
  | group v => exact (List.mem_append.mp hx).imp id (h v)
  | _ => exact .inl hx

theorem grows_having {p : Phrase} {brings : Item → Prop} (h : brings (.having p)) :
    c.Grows { c with havings := c.havings ++ [p] } brings := by
  intro x hx
  cases x with
  | having q =>
      refine (List.mem_append.mp hx).imp id fun hq => ?_
      rw [List.mem_singleton.mp hq]
      exact h
  | _ => exact .inl hx

theorem grows_order {v : Value} {brings : Item → Prop} (h : brings (.order v)) :
    c.Grows { c with orderBy := c.orderBy ++ [v] } brings := by
  intro x hx
  cases x with
  | order w =>
      refine (List.mem_append.mp hx).imp id fun hw => ?_
      rw [List.mem_singleton.mp hw]
      exact h
  | _ => exact .inl hx

/-- A clause adds nothing but what it brings. -/
theorem grows_add (b : Binding) (c : Clauses) (clause : Clause) :
    c.Grows (c.add b clause).1 (clause.Brings b) := by
  cases clause with
  | select fields =>
      refine grows_selects fun p hp => ?_
      obtain ⟨t, ht, rfl⟩ := List.mem_map.mp hp
      rcases mem_addEach ht with hnil | ⟨v, hv, hread⟩
      · cases hnil
      · exact .select hv hread
  | distinct => exact .refl c _
  | selectAggregate aggregate column label =>
      refine .after fun t ht => grows_selects (List.forall_mem_singleton.mpr ?_)
      obtain ⟨agg, _, h₁⟩ := bind_ok ht
      obtain ⟨target, htarget, h₂⟩ := bind_ok h₁
      obtain ⟨name, hname, heq⟩ := bind_ok h₂
      cases heq
      exact .selectAggregate htarget hname
  | selectRaw sql params =>
      exact .after fun p hp => grows_selects (List.forall_mem_singleton.mpr (.selectRaw hp))
  | condition link column operator value =>
      exact .after fun p hp => grows_condition (.condition hp)
  | rawCondition link sql params =>
      exact .after fun p hp => grows_condition (.rawCondition hp)
  | existence negated query =>
      cases negated with
      | false => exact grows_condition .presence
      | true => exact grows_condition .absence
  | subquery column operator query =>
      refine .after fun p hp => grows_condition ?_
      obtain ⟨op, _, h₁⟩ := bind_ok hp
      split at h₁
      · cases h₁
      · next hop =>
          obtain ⟨name, hname, heq⟩ := bind_ok h₁
          cases heq
          rw [Bool.not_eq_true, ← Bool.not_or, Bool.not_eq_false'] at hop
          exact .subquery hname hop
  | deleted rows => exact .refl c _
  | join table left right kind =>
      refine .after fun j hj x hx => ?_
      cases x with
      | join sql =>
          refine (List.mem_append.mp hx).imp id fun hsql => ?_
          rw [List.mem_singleton.mp hsql]
          exact .join hj
      | _ => exact .inl hx
  | include_ relation options =>
      refine .after fun found hfound x hx => ?_
      cases x with
      | include_ r o =>
          rcases mem_putInclude hx with hnew | hold
          · cases hnew
            exact .inr (.include_ hfound)
          · exact .inl hold
      | _ => exact .inl hx
  | groupBy columns =>
      refine grows_groups fun v hv => ?_
      obtain ⟨t, ht, rfl⟩ := List.mem_map.mp hv
      rcases mem_addEach ht with hnil | ⟨v, hv, hread⟩
      · cases hnil
      · exact .groupBy hv hread
  | groupByRaw sql => exact grows_groups (List.forall_mem_singleton.mpr .groupByRaw)
  | having sql params => exact .after fun p hp => grows_having (.having hp)
  | havingAggregate aggregate column operator value =>
      refine .after fun p hp => grows_having ?_
      obtain ⟨agg, hagg, h₁⟩ := bind_ok hp
      obtain ⟨op, hop, h₂⟩ := bind_ok h₁
      split at h₂
      · cases h₂
      · next hcomparison =>
          obtain ⟨target, htarget, heq⟩ := bind_ok h₂
          cases heq
          exact .havingAggregate hagg hop htarget (by simpa using hcomparison)
  | orderBy column direction =>
      refine .after fun t ht => grows_order ?_
      obtain ⟨dir, _, h₁⟩ := bind_ok ht
      obtain ⟨name, hname, heq⟩ := bind_ok h₁
      cases heq
      exact .orderBy hname
  | orderByRaw sql => exact grows_order .orderByRaw
  | limit n => exact .after fun _ _ => .refl c _
  | offset n => exact .after fun _ _ => .refl c _
  | paginate page perPage => exact .after fun _ _ => .refl c _

end Clauses

/-- What the bindings have and what the clauses bring holds of every builder after a run. -/
theorem Shelf.every_item {calls : List Call} {Q : Binding → Prop} {P : Item → Prop}
    (made : ∀ binding table b, .make binding table ∈ calls → Builder.make binding table = .ok b →
      Q b.binding)
    (brought : ∀ id c b x, .clause id c ∈ calls → Q b → c.Brings b x → P x) :
    (run calls).Every fun b c => Q b ∧ ∀ x, c.Has x → P x := by
  have hnone : ∀ x, ¬ (({} : Clauses).Has x) := by
    intro x hx
    cases x <;> cases hx
  refine Kept.run ⟨?_, ?_, ?_⟩
  · exact fun binding table b hmem hmake =>
      ⟨made binding table b hmem hmake, fun x hx => absurd hx (hnone x)⟩
  · exact fun binding clauses h => ⟨h.1, fun x hx => absurd hx (hnone x)⟩
  · intro id c binding clauses hmem h
    refine ⟨h.1, fun x hx => ?_⟩
    rcases clauses.grows_add binding c x hx with hold | hnew
    · exact h.2 x hold
    · exact brought id c binding x hmem h.1 hnew

end TableLoom.Query
