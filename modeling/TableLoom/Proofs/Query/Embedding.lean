import Mathlib.Data.List.Perm.Subperm
import Mathlib.Logic.Relation
import TableLoom.Proofs.Query.Clauses
import TableLoom.Proofs.Traversal

/-!
When a statement can be written: its raw texts are texts, the queries that it embeds are on the
shelf, and no query leads back to itself. Then a chain of embedded queries is never longer than the
shelf, and writing always comes to an end.
-/

namespace TableLoom.Query

def Value.IsText (v : Value) : Prop :=
  ∃ s, v = .text s

/-- Among `n` queries, one of them. -/
def Clause.NamesQuery (n : Nat) (query : Option Nat) : Prop :=
  ∃ id, query = some id ∧ id < n

/-- Raw texts are texts, and embedded queries are among `n`. -/
def Clause.Sound (n : Nat) : Clause → Prop
  | .selectRaw sql _ | .rawCondition _ sql _ | .having sql _ | .groupByRaw sql | .orderByRaw sql =>
    Value.IsText sql
  | .existence _ query | .subquery _ _ query => Clause.NamesQuery n query
  | .include_ _ (some r) => r.filter = .null ∨ Value.IsText r.filter
  | _ => True

def Call.Sound (n : Nat) : Call → Prop
  | .clause _ c => c.Sound n
  | _ => True

def Part.Writable (n : Nat) : Part → Prop
  | .text _ | .slot _ => True
  | .query id => id < n
  | .unwritable => False

def Item.phrase? : Item → Option Phrase
  | .select p | .having p => some p
  | .condition c => some c.phrase
  | .include_ _ o => o.filter
  | _ => none

/-- What an item is made of can be written, each part of it. -/
def Item.Writable (n : Nat) : Item → Prop
  | .group v | .order v => Value.IsText v
  | x => ∀ p, x.phrase? = some p → ∀ part ∈ p, part.Writable n

theorem writable_flat {p : Phrase} (h : p.all Part.isFlat = true) (n : Nat) :
    ∀ part ∈ p, part.Writable n := by
  intro part hpart
  have hflat := List.all_eq_true.mp h part hpart
  cases part with
  | text s => trivial
  | slot v => trivial
  | query id => cases hflat
  | unwritable => cases hflat

theorem writable_raw {sql : Value} {params : List Value} {p : Phrase} (text : Value.IsText sql)
    (h : readRaw sql params = .ok p) (n : Nat) : ∀ part ∈ p, part.Writable n := by
  obtain ⟨s, rfl⟩ := text
  rcases readRaw_ok h with ⟨_, items, hlist⟩ | ⟨t, _, reads⟩
  · cases hlist
  · exact writable_flat reads.flat n

theorem writable_embedded {n : Nat} {query : Option Nat} (h : Clause.NamesQuery n query)
    (s t : String) : ∀ part ∈ [.text s, embed query, .text t], Part.Writable n part := by
  obtain ⟨id, rfl, hid⟩ := h
  intro part hpart
  simp only [embed, List.mem_cons, List.not_mem_nil, or_false] at hpart
  rcases hpart with rfl | rfl | rfl
  · trivial
  · exact hid
  · trivial

theorem writable_brought {n : Nat} {b : Binding} {c : Clause} (sound : c.Sound n) {x : Item}
    (h : c.Brings b x) : x.Writable n := by
  have hraw : ∀ {sql : Value} {params : List Value} {p : Phrase}, Value.IsText sql →
      readRaw sql params = .ok p → ∀ q, some p = some q → ∀ part ∈ q, part.Writable n := by
    rintro sql params p text hp q ⟨⟩
    exact writable_raw text hp n
  have hflat : ∀ {p : Phrase}, p.all Part.isFlat = true →
      ∀ q, some p = some q → ∀ part ∈ q, part.Writable n := by
    rintro p flat q ⟨⟩
    exact writable_flat flat n
  have hembedded : ∀ {s t : String} {query : Option Nat}, Clause.NamesQuery n query →
      ∀ q, some [.text s, embed query, .text t] = some q → ∀ part ∈ q, Part.Writable n part := by
    rintro s t query names q ⟨⟩
    exact writable_embedded names s t
  cases h with
  | select _ _ => exact hflat rfl
  | selectAggregate _ _ => exact hflat rfl
  | selectRaw hp => exact hraw sound hp
  | @condition link _ _ _ _ hp =>
      obtain ⟨m, _, hreads⟩ := readCondition_ok link hp
      exact hflat hreads.flat
  | rawCondition hp => exact hraw sound hp
  | presence => exact hembedded sound
  | absence => exact hembedded sound
  | subquery _ _ => exact hembedded sound
  | join _ =>
      intro p hp
      cases hp
  | include_ hfound =>
      obtain ⟨asked, rfl, _, hoptions⟩ := readInclude_ok hfound
      intro p hp
      rcases (readOptions_ok hoptions).1 with hnone | ⟨q, hq, hread⟩
      · cases hnone.symm.trans hp
      · cases hq.symm.trans hp
        rcases sound with hnull | htext
        · rw [hnull] at hread
          cases hread
        · exact writable_raw htext hread n
  | groupBy _ _ => exact ⟨_, rfl⟩
  | groupByRaw => exact sound
  | having hp => exact hraw sound hp
  | havingAggregate _ _ _ _ => exact hflat rfl
  | orderBy _ => exact ⟨_, rfl⟩
  | orderByRaw => exact sound

theorem writable_run {calls : List Call} {n : Nat} (sound : ∀ call ∈ calls, call.Sound n) :
    (Shelf.run calls).Every fun _ c => ∀ x, c.Has x → x.Writable n := by
  have hitems : (Shelf.run calls).Every fun _ c => True ∧ ∀ x, c.Has x → x.Writable n :=
    Shelf.every_item (fun _ _ _ _ _ => trivial)
      fun id c b x hmem _ hbrings => writable_brought (sound _ hmem) hbrings
  exact fun b hb => (hitems b hb).2

/-- The queries that a phrase embeds. -/
def queriesIn (p : Phrase) : List Nat :=
  p.filterMap fun
    | .query id => some id
    | _ => none

/-- The queries that a builder embeds, in whichever clause. -/
def Clauses.embedded (c : Clauses) : List Nat :=
  (c.selects ++ c.conditions.map (·.phrase) ++ c.havings
    ++ c.includes.filterMap (·.2.filter)).flatMap queriesIn

theorem mem_embedded {c : Clauses} {x : Item} (hx : c.Has x) {p : Phrase} (hp : x.phrase? = some p)
    {id : Nat} (hid : .query id ∈ p) : id ∈ c.embedded := by
  have hqueries : id ∈ queriesIn p := List.mem_filterMap.mpr ⟨_, hid, rfl⟩
  refine List.mem_flatMap.mpr ⟨p, ?_, hqueries⟩
  simp only [List.mem_append, List.mem_map, List.mem_filterMap]
  cases x with
  | select q =>
      cases hp
      exact .inl (.inl (.inl hx))
  | condition q =>
      cases hp
      exact .inl (.inl (.inr ⟨q, hx, rfl⟩))
  | having q =>
      cases hp
      exact .inl (.inr hx)
  | include_ r o => exact .inr ⟨(r, o), hx, hp⟩
  | join sql => cases hp
  | group v => cases hp
  | order v => cases hp

/-- One query of the shelf embeds another. -/
def Shelf.Embeds (s : Shelf) (i j : Nat) : Prop :=
  ∃ b, s.get? i = some b ∧ j ∈ b.clauses.embedded

/-- No query contains itself, at any depth. -/
def Shelf.Acyclic (s : Shelf) : Prop :=
  ∀ i, ¬ Relation.TransGen s.Embeds i i

theorem expand_total {write : Nat → Except Fault (List Piece)} (n : Nat) {p : Phrase}
    (writable : ∀ part ∈ p, part.Writable n)
    (total : ∀ id, id < n → .query id ∈ p → ∃ ps, write id = .ok ps) :
    ∃ ps, expand write p = .ok ps := by
  induction p with
  | nil => exact ⟨[], rfl⟩
  | cons part p ih =>
      obtain ⟨ps, hps⟩ := ih (fun q hq => writable q (List.mem_cons_of_mem part hq))
        fun id hid hmem => total id hid (List.mem_cons_of_mem part hmem)
      have hpart := writable part List.mem_cons_self
      cases part with
      | text s => exact ⟨.text s :: ps, by rw [expand, hps]; rfl⟩
      | slot v => exact ⟨.slot v :: ps, by rw [expand, hps]; rfl⟩
      | query id =>
          obtain ⟨inner, hinner⟩ := total id hpart List.mem_cons_self
          exact ⟨inner ++ ps, by rw [expand, hinner, hps]; rfl⟩
      | unwritable => cases hpart

theorem texts_total (word : String) {vs : List Value} (h : ∀ v ∈ vs, Value.IsText v) :
    ∃ pss, Builder.texts word vs = .ok pss := by
  have hread : ∃ ss, vs.mapM Value.asText? = some ss := by
    induction vs with
    | nil => exact ⟨[], rfl⟩
    | cons v vs ih =>
        obtain ⟨s, rfl⟩ := h v List.mem_cons_self
        obtain ⟨ss, hss⟩ := ih fun w hw => h w (List.mem_cons_of_mem _ hw)
        exact ⟨s :: ss, by rw [List.mapM_cons, hss]; rfl⟩
  obtain ⟨ss, hss⟩ := hread
  unfold Builder.texts
  rw [hss]
  cases ss with
  | nil => exact ⟨[], rfl⟩
  | cons s ss => exact ⟨_, rfl⟩

/-- Beside text, a join that loads a relation holds what narrows the relation. -/
theorem mem_lateral {r : Relation} {table : String} {o : IncludeOptions} {part : Part}
    (h : part ∈ r.lateral table o) :
    (∃ s, part = .text s) ∨ ∃ p, o.filter = some p ∧ part ∈ p := by
  unfold Relation.lateral Relation.rows at h
  extract_lets filter order limit at h
  simp only [List.cons_append, List.mem_cons, List.mem_append, List.not_mem_nil, or_false] at h
  rcases h with rfl | rfl | (hfilter | rfl) | rfl
  · exact .inl ⟨_, rfl⟩
  · exact .inl ⟨_, rfl⟩
  · cases hoption : o.filter with
    | none => simp [filter, hoption] at hfilter
    | some p =>
        simp only [filter, hoption, List.cons_append, List.mem_cons, List.mem_append,
          List.not_mem_nil, or_false] at hfilter
        rcases hfilter with rfl | hp | rfl
        · exact .inl ⟨_, rfl⟩
        · exact .inr ⟨p, rfl, hp⟩
        · exact .inl ⟨_, rfl⟩
  · exact .inl ⟨_, rfl⟩
  · exact .inl ⟨_, rfl⟩

/-- Items can be written, and so can every query that they embed. -/
structure Clauses.Served (c : Clauses) (n : Nat) (write : Nat → Except Fault (List Piece)) :
    Prop where
  writable : ∀ x, c.Has x → x.Writable n
  total : ∀ id, id < n → id ∈ c.embedded → ∃ ps, write id = .ok ps

namespace Clauses.Served

variable {c : Clauses} {n : Nat} {write : Nat → Except Fault (List Piece)}

theorem phrase (served : c.Served n write) (x : Item) (hx : c.Has x) {p : Phrase}
    (hp : x.phrase? = some p) {q : Phrase} (parts : ∀ part ∈ q, (∃ s, part = .text s) ∨ part ∈ p) :
    ∃ ps, expand write q = .ok ps := by
  have hwritable : ∀ part ∈ p, part.Writable n := by
    have h := served.writable x hx
    cases x with
    | join sql => cases hp
    | group v => cases hp
    | order v => cases hp
    | _ => exact h p hp
  refine expand_total n ?_ fun id hid hquery => ?_
  · intro part hpart
    rcases parts part hpart with ⟨s, rfl⟩ | hmem
    · trivial
    · exact hwritable part hmem
  · rcases parts _ hquery with ⟨s, hs⟩ | hmem
    · cases hs
    · exact served.total id hid (mem_embedded hx hp hmem)

end Clauses.Served

namespace Builder

variable {b : Builder} {n : Nat} {write : Nat → Except Fault (List Piece)}

theorem head_total (served : b.clauses.Served n write) (shape : Shape) :
    ∃ ps, b.head write shape = .ok ps := by
  obtain ⟨selects, hselects⟩ : ∃ pss, b.clauses.selects.mapM (expand write) = .ok pss :=
    exists_mapM_eq_ok.mpr fun p hp => served.phrase (.select p) hp rfl fun part hpart => .inr hpart
  unfold head
  simp only
  split
  · exact ⟨_, rfl⟩
  · split
    · exact ⟨_, rfl⟩
    · rw [hselects]
      exact ⟨_, rfl⟩

theorem includes_total (served : b.clauses.Served n write) (shape : Shape) :
    ∃ pss, b.includes write shape = .ok pss := by
  unfold includes
  split
  · exact ⟨_, rfl⟩
  · refine exists_mapM_eq_ok.mpr fun (r, o) hx => ?_
    cases hfilter : o.filter with
    | none =>
        refine expand_total n (fun part hpart => ?_) fun id _ hquery => ?_
        · rcases mem_lateral hpart with ⟨s, rfl⟩ | ⟨p, hp, _⟩
          · trivial
          · cases hfilter.symm.trans hp
        · rcases mem_lateral hquery with ⟨s, hs⟩ | ⟨p, hp, _⟩
          · cases hs
          · cases hfilter.symm.trans hp
    | some p =>
        refine served.phrase (.include_ r o) hx hfilter fun part hpart => ?_
        refine (mem_lateral hpart).imp id ?_
        rintro ⟨q, hq, hmem⟩
        cases hfilter.symm.trans hq
        exact hmem

theorem conditions_total (served : b.clauses.Served n write) :
    ∃ filter, b.conditions write = .ok filter := by
  obtain ⟨user, huser⟩ : ∃ user, (b.clauses.conditions.mapM fun c =>
      return (c.link, ← expand write c.phrase) : Except Fault _) = .ok user := by
    refine exists_mapM_eq_ok.mpr fun c hc => ?_
    obtain ⟨ps, hps⟩ := served.phrase (.condition c) hc rfl fun part hpart => .inr hpart
    exact ⟨(c.link, ps), by rw [hps]; rfl⟩
  exact ⟨guarded b.guard? (connect user), by rw [conditions, huser]; rfl⟩

theorem grouping_total (served : b.clauses.Served n write) (shape : Shape) :
    ∃ pss, b.grouping write shape = .ok pss := by
  obtain ⟨groups, hgroups⟩ := texts_total "GROUP BY " fun v hv => served.writable (.group v) hv
  obtain ⟨havings, hhavings⟩ : ∃ pss, b.clauses.havings.mapM (expand write) = .ok pss :=
    exists_mapM_eq_ok.mpr fun p hp => served.phrase (.having p) hp rfl fun part hpart => .inr hpart
  unfold grouping
  split
  · exact ⟨[], rfl⟩
  · rw [hgroups, hhavings]
    change ∃ pss, (if b.clauses.havings.isEmpty then pure groups else
      pure (groups ++ [.text "HAVING " :: joined [.text " AND "] havings]) : Except Fault _) = .ok pss
    split
    · exact ⟨_, rfl⟩
    · exact ⟨_, rfl⟩

theorem ordering_total (served : b.clauses.Served n write) (shape : Shape) :
    ∃ pss, b.ordering shape = .ok pss := by
  unfold ordering
  split
  · exact texts_total "ORDER BY " fun v hv => served.writable (.order v) hv
  · exact ⟨[], rfl⟩

theorem pieces_total (served : b.clauses.Served n write) (shape : Shape) :
    ∃ ps, b.pieces write shape = .ok ps := by
  obtain ⟨start, hstart⟩ := head_total served shape
  obtain ⟨laterals, hlaterals⟩ := includes_total served shape
  obtain ⟨filter, hfilter⟩ := conditions_total served
  obtain ⟨groups, hgroups⟩ := grouping_total served shape
  obtain ⟨order, horder⟩ := ordering_total served shape
  unfold pieces sections
  rw [hstart, hlaterals, hfilter, hgroups, horder]
  exact ⟨_, rfl⟩

theorem deletion_total (served : b.clauses.Served n write) : ∃ ps, b.deletion write = .ok ps := by
  obtain ⟨filter, hfilter⟩ := conditions_total served
  unfold deletion
  rw [hfilter]
  exact ⟨_, rfl⟩

end Builder

namespace Shelf

/-- Distinct queries of a shelf are no more than the shelf holds. -/
theorem length_le_of_nodup {n : Nat} {path : List Nat} (nodup : path.Nodup)
    (bound : ∀ i ∈ path, i < n) : path.length ≤ n := by
  have hsub : path ⊆ List.range n := fun i hi => List.mem_range.mpr (bound i hi)
  have hle := (List.subperm_of_subset nodup hsub).length_le
  rwa [List.length_range] at hle

/-- A query is written when the fuel and the queries on the way to it make up the shelf: none of them
comes back, so the fuel lasts. -/
theorem write_total {s : Shelf} (acyclic : s.Acyclic)
    (writable : s.Every fun _ c => ∀ x, c.Has x → x.Writable s.builders.length) {fuel : Nat}
    {path : List Nat} (nodup : path.Nodup) (bound : ∀ i ∈ path, i < s.builders.length)
    (count : path.length + fuel = s.builders.length) {id : Nat} (hid : id < s.builders.length)
    (leads : ∀ i ∈ path, Relation.TransGen s.Embeds i id) :
    ∃ ps, s.write fuel id = .ok ps := by
  have hfresh : id ∉ path := fun hmem => acyclic id (leads id hmem)
  have hnodup : (id :: path).Nodup := List.nodup_cons.mpr ⟨hfresh, nodup⟩
  have hbound : ∀ i ∈ id :: path, i < s.builders.length :=
    List.forall_mem_cons.mpr ⟨hid, bound⟩
  induction fuel generalizing path id with
  | zero =>
      have hle := length_le_of_nodup hnodup hbound
      rw [List.length_cons] at hle
      omega
  | succ fuel ih =>
      obtain ⟨b, hget⟩ : ∃ b, s.get? id = some b := ⟨_, List.getElem?_eq_getElem hid⟩
      have hserved : b.clauses.Served s.builders.length (s.write fuel) := by
        refine ⟨writable.get hget, fun j hj hembeds => ?_⟩
        have hstep : s.Embeds id j := ⟨b, hget, hembeds⟩
        have hleads : ∀ i ∈ id :: path, Relation.TransGen s.Embeds i j :=
          List.forall_mem_cons.mpr ⟨.single hstep, fun i hi => (leads i hi).tail hstep⟩
        have hcount : (id :: path).length + fuel = s.builders.length := by
          rw [List.length_cons]
          omega
        have hnew : j ∉ id :: path := fun hmem => acyclic j (hleads j hmem)
        exact ih hnodup hbound hcount hj hleads hnew (List.nodup_cons.mpr ⟨hnew, hnodup⟩)
          (List.forall_mem_cons.mpr ⟨hj, hbound⟩)
      rw [write, hget]
      exact Builder.pieces_total hserved {}

theorem served_of_acyclic {s : Shelf} (acyclic : s.Acyclic)
    (writable : s.Every fun _ c => ∀ x, c.Has x → x.Writable s.builders.length) {id : Nat}
    {b : Builder} (hget : s.get? id = some b) :
    b.clauses.Served s.builders.length s.embedded := by
  refine ⟨writable.get hget, fun j hj _ => ?_⟩
  exact write_total acyclic writable List.nodup_nil (List.forall_mem_nil _) (Nat.zero_add _) hj
    (List.forall_mem_nil _)

theorem embeds_set {s : Shelf} {id : Nat} {b b' : Builder} (hget : s.get? id = some b)
    (same : b'.clauses = b.clauses) {i j : Nat} (h : (s.set id b').Embeds i j) : s.Embeds i j := by
  obtain ⟨d, hd, hembeds⟩ := h
  unfold get? set at hd
  rw [List.getElem?_set] at hd
  split at hd
  · next heq =>
      subst heq
      split at hd
      · cases hd
        exact ⟨b, hget, same ▸ hembeds⟩
      · cases hd
  · exact ⟨d, hd, hembeds⟩

/-- Queries that only embed later ones never come back. -/
theorem acyclic_of_later {s : Shelf} (later : ∀ i j, s.Embeds i j → i < j) : s.Acyclic := by
  have hless : ∀ i j, Relation.TransGen s.Embeds i j → i < j := by
    intro i j h
    induction h with
    | single hstep => exact later _ _ hstep
    | tail _ hstep ih => exact Nat.lt_trans ih (later _ _ hstep)
  exact fun i h => Nat.lt_irrefl i (hless i i h)

theorem acyclic_set {s : Shelf} (acyclic : s.Acyclic) {id : Nat} {b b' : Builder}
    (hget : s.get? id = some b) (same : b'.clauses = b.clauses) : (s.set id b').Acyclic :=
  fun i h => acyclic i (Relation.TransGen.mono (fun _ _ => embeds_set hget same) i i h)

variable {calls : List Call}

theorem toSql_total (sound : ∀ call ∈ calls, call.Sound (run calls).builders.length)
    (acyclic : (run calls).Acyclic) {id : Nat} {b : Builder}
    (hget : (run calls).get? id = some b) (alive : b.stage ≠ .released) :
    ∃ st, (run calls).toSql b = .ok st := by
  obtain ⟨ps, hps⟩ := Builder.pieces_total
    (served_of_acyclic acyclic (writable_run sound) hget) {}
  unfold toSql
  rw [hps]
  simp [alive, Except.map]

theorem send_total (sound : ∀ call ∈ calls, call.Sound (run calls).builders.length)
    (acyclic : (run calls).Acyclic) {id : Nat} {b : Builder}
    (hget : (run calls).get? id = some b) (ready : b.stage = .unbuilt ∨ b.stage = .configuring)
    {t : Terminal} {plan : Builder.Plan} (hplan : b.plan t = .ok plan) :
    ∃ sent, ((run calls).send id t).2 = .ok sent := by
  let b' : Builder := { b with stage := .executed }
  let s' := (run calls).set id b'
  have hbegin : b.begin_ = .ok b' := by
    unfold Builder.begin_
    rcases ready with h | h <;> rw [h]
  have hlength : s'.builders.length = (run calls).builders.length := List.length_set
  have hwritable : s'.Every fun _ c => ∀ x, c.Has x → x.Writable s'.builders.length := by
    have hrun := writable_run sound
    have hb : ∀ x, b.clauses.Has x → x.Writable (run calls).builders.length := hrun.get hget
    rw [hlength]
    exact hrun.set id hb
  have hget' : s'.get? id = some b' := by
    have hid : id < (run calls).builders.length := (List.getElem?_eq_some_iff.mp hget).1
    exact List.getElem?_set_self hid
  have hacyclic : s'.Acyclic := acyclic_set acyclic hget rfl
  have hserved := served_of_acyclic hacyclic hwritable hget'
  have hpieces : ∃ ps, (if plan.deletes then b'.deletion s'.embedded
      else b'.pieces s'.embedded plan.shape) = .ok ps := by
    split
    · exact Builder.deletion_total hserved
    · exact Builder.pieces_total hserved plan.shape
  obtain ⟨ps, hps⟩ := hpieces
  have hsend : ((run calls).send id t).2 = (if plan.deletes then b'.deletion s'.embedded
      else b'.pieces s'.embedded plan.shape).map fun ps => ⟨bind (plan.wrap ps), plan.reading⟩ := by
    unfold send
    rw [hget]
    simp only [hplan, hbegin]
    rfl
  rw [hsend, hps]
  exact ⟨_, rfl⟩

end Shelf

end TableLoom.Query
