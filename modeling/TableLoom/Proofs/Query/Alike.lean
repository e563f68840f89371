import Mathlib.Data.List.Forall2
import TableLoom.Proofs.Query.Embedding

/-!
Two builders that differ in bound values alone. Texts, embedded queries and the places of values are the
same in both, and values in the same place are related. Statements written from them are alike again:
their texts are equal, and their values are related one by one.
-/

namespace TableLoom.Query

/-- Two readings fail for the same reason, or give related results. -/
inductive Agree {α β : Type} (rel : α → β → Prop) : Except Fault α → Except Fault β → Prop
  | error (e : Fault) : Agree rel (.error e) (.error e)
  | ok {a : α} {b : β} (h : rel a b) : Agree rel (.ok a) (.ok b)

namespace Agree

variable {α β γ δ : Type} {S : α → β → Prop} {T : γ → δ → Prop}
  {x : Except Fault α} {y : Except Fault β}

theorem cases_ (h : Agree S x y) :
    (∃ e, x = .error e ∧ y = .error e) ∨ ∃ a b, x = .ok a ∧ y = .ok b ∧ S a b := by
  cases h with
  | error e => exact .inl ⟨e, rfl, rfl⟩
  | ok h => exact .inr ⟨_, _, rfl, rfl, h⟩

theorem bind (h : Agree S x y) {f : α → Except Fault γ} {g : β → Except Fault δ}
    (next : ∀ a b, S a b → Agree T (f a) (g b)) : Agree T (x >>= f) (y >>= g) := by
  cases h with
  | error e => exact .error e
  | ok h => exact next _ _ h

theorem bind_same {f : α → Except Fault γ} {g : α → Except Fault δ}
    (next : ∀ a, x = .ok a → Agree T (f a) (g a)) : Agree T (x >>= f) (x >>= g) := by
  cases x with
  | error e => exact .error e
  | ok a => exact next a rfl

theorem map (h : Agree S x y) {f : α → γ} {g : β → δ}
    (next : ∀ a b, S a b → T (f a) (g b)) : Agree T (x.map f) (y.map g) := by
  cases h with
  | error e => exact .error e
  | ok h => exact .ok (next _ _ h)

theorem mapM {xs : List α} {ys : List β} (h : List.Forall₂ S xs ys) {f : α → Except Fault γ}
    {g : β → Except Fault δ} (next : ∀ a b, S a b → Agree T (f a) (g b)) :
    Agree (List.Forall₂ T) (xs.mapM f) (ys.mapM g) := by
  induction h with
  | nil => exact .ok .nil
  | cons head tail ih =>
      rw [List.mapM_cons, List.mapM_cons]
      refine (next _ _ head).bind fun c d hcd => ?_
      exact ih.bind fun cs ds hcds => .ok (.cons hcd hcds)

end Agree

variable {R : Value → Value → Prop}

inductive Piece.Alike (R : Value → Value → Prop) : Piece → Piece → Prop
  | text (s : String) : Alike R (.text s) (.text s)
  | slot {v w : Value} (h : R v w) : Alike R (.slot v) (.slot w)

inductive Part.Alike (R : Value → Value → Prop) : Part → Part → Prop
  | text (s : String) : Alike R (.text s) (.text s)
  | slot {v w : Value} (h : R v w) : Alike R (.slot v) (.slot w)
  | query (id : Nat) : Alike R (.query id) (.query id)
  | unwritable : Alike R .unwritable .unwritable

abbrev PiecesAlike (R : Value → Value → Prop) : List Piece → List Piece → Prop :=
  List.Forall₂ (Piece.Alike R)

abbrev PhrasesAlike (R : Value → Value → Prop) : Phrase → Phrase → Prop :=
  List.Forall₂ (Part.Alike R)

/-- A statement with the same text and related values. -/
structure BoundAlike (R : Value → Value → Prop) (st st' : Statement.Bound) : Prop where
  sql : st.sql = st'.sql
  params : List.Forall₂ R st.params st'.params

theorem sqlFrom_alike {ps qs : List Piece} (h : PiecesAlike R ps qs) (n : Nat) :
    sqlFrom n ps = sqlFrom n qs := by
  induction h generalizing n with
  | nil => rfl
  | cons head tail ih =>
      cases head with
      | text s => rw [sqlFrom, sqlFrom, ih]
      | slot h => rw [sqlFrom, sqlFrom, ih]

theorem values_alike {ps qs : List Piece} (h : PiecesAlike R ps qs) :
    List.Forall₂ R (values ps) (values qs) := by
  induction h with
  | nil => exact .nil
  | cons head tail ih =>
      cases head with
      | text s => exact ih
      | slot h => exact .cons h ih

theorem isBlank_alike {ps qs : List Piece} (h : PiecesAlike R ps qs) : isBlank ps = isBlank qs := by
  induction h with
  | nil => rfl
  | cons head tail ih =>
      cases head with
      | text s => rw [isBlank, isBlank, ih]
      | slot h => rfl

theorem bind_alike {ps qs : List Piece} (h : PiecesAlike R ps qs) :
    BoundAlike R (bind ps) (bind qs) :=
  ⟨sqlFrom_alike h 1, values_alike h⟩

theorem pieces_text (s : String) : PiecesAlike R [.text s] [.text s] :=
  .cons (.text s) .nil

theorem joined_alike {α β : Type} {S : α → β → Prop} {sep : List α} {sep' : List β}
    (hsep : List.Forall₂ S sep sep') {xs : List (List α)} {ys : List (List β)}
    (h : List.Forall₂ (List.Forall₂ S) xs ys) :
    List.Forall₂ S (joined sep xs) (joined sep' ys) := by
  induction h with
  | nil => exact .nil
  | cons head tail ih =>
      cases tail with
      | nil => exact head
      | cons next rest =>
          exact List.rel_append (List.rel_append head hsep) ih

/-- Ways to write queries that agree on each. -/
def WritesAlike (R : Value → Value → Prop) (write write' : Nat → Except Fault (List Piece)) : Prop :=
  ∀ id, Agree (PiecesAlike R) (write id) (write' id)

variable {write write' : Nat → Except Fault (List Piece)}

theorem expand_alike (hw : WritesAlike R write write') {p q : Phrase} (h : PhrasesAlike R p q) :
    Agree (PiecesAlike R) (expand write p) (expand write' q) := by
  induction h with
  | nil => exact .ok .nil
  | cons head tail ih =>
      cases head with
      | text s => exact ih.bind fun ps qs hrest => .ok (.cons (.text s) hrest)
      | slot h => exact ih.bind fun ps qs hrest => .ok (.cons (.slot h) hrest)
      | query id =>
          refine (hw id).bind fun inner inner' hinner => ?_
          exact ih.bind fun ps qs hrest => .ok (List.rel_append hinner hrest)
      | unwritable => exact .error _

structure IncludeOptions.Alike (R : Value → Value → Prop) (o o' : IncludeOptions) : Prop where
  filter : Option.Rel (PhrasesAlike R) o.filter o'.filter
  orderBy : o.orderBy = o'.orderBy
  limit : o.limit = o'.limit

def IncludesAlike (R : Value → Value → Prop) (x y : Relation × IncludeOptions) : Prop :=
  x.1 = y.1 ∧ x.2.Alike R y.2

def Condition.Alike (R : Value → Value → Prop) (x y : Condition) : Prop :=
  x.link = y.link ∧ PhrasesAlike R x.phrase y.phrase

structure Clauses.Alike (R : Value → Value → Prop) (c d : Clauses) : Prop where
  selects : List.Forall₂ (PhrasesAlike R) c.selects d.selects
  distinct : c.distinct = d.distinct
  joins : c.joins = d.joins
  includes : List.Forall₂ (IncludesAlike R) c.includes d.includes
  conditions : List.Forall₂ (Condition.Alike R) c.conditions d.conditions
  deleted : c.deleted = d.deleted
  groupBy : c.groupBy = d.groupBy
  havings : List.Forall₂ (PhrasesAlike R) c.havings d.havings
  orderBy : c.orderBy = d.orderBy
  limit : c.limit = d.limit
  offset : c.offset = d.offset

theorem Clauses.Alike.empty : Clauses.Alike R {} {} :=
  ⟨.nil, rfl, rfl, .nil, .nil, rfl, rfl, .nil, rfl, rfl, rfl⟩

structure Builder.Alike (R : Value → Value → Prop) (b d : Builder) : Prop where
  binding : b.binding = d.binding
  stage : b.stage = d.stage
  clauses : b.clauses.Alike R d.clauses

theorem isEmpty_alike {α β : Type} {rel : α → β → Prop} {xs : List α} {ys : List β}
    (h : List.Forall₂ rel xs ys) : xs.isEmpty = ys.isEmpty := by
  cases h with
  | nil => rfl
  | cons _ _ => rfl

theorem lateral_alike (r : Relation) (table : String) {o o' : IncludeOptions} (h : o.Alike R o') :
    PhrasesAlike R (r.lateral table o) (r.lateral table o') := by
  obtain ⟨filter, orderBy, limit⟩ := o
  obtain ⟨filter', orderBy', limit'⟩ := o'
  obtain ⟨hfilter, horder, hlimit⟩ := h
  obtain rfl : orderBy = orderBy' := horder
  obtain rfl : limit = limit' := hlimit
  have hrows : PhrasesAlike R (r.rows table ⟨filter, orderBy, limit⟩)
      (r.rows table ⟨filter', orderBy, limit⟩) := by
    refine .cons (.text _) (List.rel_append ?_ (.cons (.text _) .nil))
    cases hfilter with
    | none => exact .nil
    | some hphrase => exact .cons (.text _) (List.rel_append hphrase (.cons (.text _) .nil))
  exact .cons (.text _) (List.rel_append hrows (.cons (.text _) .nil))

namespace Builder

variable {b d : Builder} (h : b.Alike R d) (hw : WritesAlike R write write')

include h

theorem guard_alike : b.guard? = d.guard? := by
  unfold guard?
  rw [h.binding, h.clauses.deleted]

include hw

theorem head_alike (shape : Shape) :
    Agree (PiecesAlike R) (b.head write shape) (d.head write' shape) := by
  have hitems : List.Forall₂ (PiecesAlike R)
      (b.clauses.includes.map fun x => [.text x.1.item])
      (d.clauses.includes.map fun x => [.text x.1.item]) := by
    refine List.rel_map (R := IncludesAlike R) (fun x y hxy => ?_) h.clauses.includes
    rw [hxy.1]
    exact pieces_text _
  unfold head
  simp only [isEmpty_alike h.clauses.selects, isEmpty_alike h.clauses.includes, h.clauses.distinct,
    h.clauses.joins, h.binding]
  split
  · exact .ok (pieces_text _)
  · split
    · exact .ok (pieces_text _)
    · refine (Agree.mapM h.clauses.selects fun p q => expand_alike hw).bind fun ps qs hselects => ?_
      refine .ok (.cons (.text _) (List.rel_append (joined_alike (pieces_text _) ?_) (pieces_text _)))
      rw [isEmpty_alike hselects]
      refine List.rel_append ?_ hitems
      split
      · exact .cons (pieces_text _) .nil
      · exact hselects

theorem includes_alike (shape : Shape) :
    Agree (List.Forall₂ (PiecesAlike R)) (b.includes write shape) (d.includes write' shape) := by
  unfold includes
  rw [h.binding]
  split
  · exact .ok .nil
  · refine Agree.mapM h.clauses.includes fun (r, o) (r', o') hxy => ?_
    obtain rfl : r = r' := hxy.1
    exact expand_alike hw (lateral_alike r _ hxy.2)

omit h hw in
theorem connect_alike {xs ys : List (Link × List Piece)}
    (hxs : List.Forall₂ (fun x y => x.1 = y.1 ∧ PiecesAlike R x.2 y.2) xs ys) :
    PiecesAlike R (connect xs) (connect ys) := by
  cases hxs with
  | nil => exact .nil
  | cons head tail =>
      refine List.rel_append head.2 (List.rel_flatMap tail fun (link, ps) (link', qs) hxy => ?_)
      obtain rfl : link = link' := hxy.1
      exact .cons (.text _) hxy.2

omit h hw in
theorem guarded_alike (guard : Option String) {ps qs : List Piece} (hps : PiecesAlike R ps qs) :
    Option.Rel (PiecesAlike R) (guarded guard ps) (guarded guard qs) := by
  unfold guarded
  rw [isBlank_alike hps, sqlFrom_alike hps 1]
  split
  · split
    · exact .none
    · exact .some hps
  · split
    · exact .some (pieces_text _)
    · split
      · exact .some (.cons (.text _) (List.rel_append hps (pieces_text _)))
      · exact .some (.cons (.text _) hps)

theorem conditions_alike :
    Agree (Option.Rel (PiecesAlike R)) (b.conditions write) (d.conditions write') := by
  unfold conditions
  rw [guard_alike h]
  refine (Agree.mapM h.clauses.conditions (T := fun x y => x.1 = y.1 ∧ PiecesAlike R x.2 y.2)
    fun x y hxy => ?_).bind fun user user' huser => .ok (guarded_alike _ (connect_alike huser))
  exact (expand_alike hw hxy.2).bind fun ps qs hps => .ok ⟨hxy.1, hps⟩

omit h hw in
theorem forall₂_pieces (pss : List (List Piece)) (texts : ∀ ps ∈ pss, ∃ s, ps = [.text s]) :
    List.Forall₂ (PiecesAlike R) pss pss := by
  refine List.forall₂_same.mpr fun ps hps => ?_
  obtain ⟨s, rfl⟩ := texts ps hps
  exact pieces_text s

omit h hw in
theorem texts_alike (word : String) (vs : List Value) :
    Agree (List.Forall₂ (PiecesAlike R)) (texts word vs) (texts word vs) := by
  unfold texts
  split
  · exact .error _
  · exact .ok .nil
  · exact .ok (.cons (pieces_text _) .nil)

theorem grouping_alike (shape : Shape) :
    Agree (List.Forall₂ (PiecesAlike R)) (b.grouping write shape) (d.grouping write' shape) := by
  unfold grouping
  rw [h.clauses.groupBy, isEmpty_alike h.clauses.havings]
  split
  · exact .ok .nil
  · refine (texts_alike (R := R) "GROUP BY " d.clauses.groupBy).bind fun groups groups' hgroups => ?_
    split
    · exact .ok hgroups
    · refine (Agree.mapM h.clauses.havings fun p q => expand_alike hw).bind fun ps qs hps => ?_
      refine .ok (List.rel_append hgroups (.cons (.cons (.text _) ?_) .nil))
      exact joined_alike (pieces_text _) hps

omit hw in
theorem ordering_alike (shape : Shape) :
    Agree (List.Forall₂ (PiecesAlike R)) (b.ordering shape) (d.ordering shape) := by
  unfold ordering
  rw [h.clauses.orderBy]
  split
  · exact texts_alike _ _
  · exact .ok .nil

omit hw in
theorem paging_alike (shape : Shape) :
    List.Forall₂ (PiecesAlike R) (b.paging shape) (d.paging shape) := by
  have hsame : b.paging shape = d.paging shape := by
    unfold paging
    rw [h.clauses.limit, h.clauses.offset]
  rw [hsame]
  refine forall₂_pieces _ fun ps hps => ?_
  unfold paging at hps
  split at hps
  · rcases List.mem_append.mp hps with hps | hps
    · obtain ⟨n, _, rfl⟩ := List.mem_map.mp hps
      exact ⟨_, rfl⟩
    · obtain ⟨n, _, rfl⟩ := List.mem_map.mp hps
      exact ⟨_, rfl⟩
  · obtain ⟨n, _, rfl⟩ := List.mem_map.mp hps
    exact ⟨_, rfl⟩

theorem pieces_alike (shape : Shape) :
    Agree (PiecesAlike R) (b.pieces write shape) (d.pieces write' shape) := by
  unfold pieces sections
  refine Agree.map (S := List.Forall₂ (PiecesAlike R)) ?_ fun pss qss => joined_alike (pieces_text _)
  refine (head_alike h hw shape).bind fun start start' hstart => ?_
  refine (includes_alike h hw shape).bind fun laterals laterals' hlaterals => ?_
  refine (conditions_alike h hw).bind fun filter filter' hfilter => ?_
  refine (grouping_alike h hw shape).bind fun groups groups' hgroups => ?_
  refine (ordering_alike h shape).bind fun order order' horder => ?_
  have hjoins : List.Forall₂ (PiecesAlike R) (b.clauses.joins.map fun j => [.text j])
      (d.clauses.joins.map fun j => [.text j]) := by
    rw [h.clauses.joins]
    refine forall₂_pieces _ fun ps hps => ?_
    obtain ⟨j, _, rfl⟩ := List.mem_map.mp hps
    exact ⟨j, rfl⟩
  have hwhere : List.Forall₂ (PiecesAlike R) (filter.toList.map (Piece.text "WHERE " :: ·))
      (filter'.toList.map (Piece.text "WHERE " :: ·)) := by
    cases hfilter with
    | none => exact .nil
    | some hps => exact .cons (.cons (.text _) hps) .nil
  have hfront := List.rel_append (.cons hstart hjoins) hlaterals
  exact .ok (List.rel_append (List.rel_append (List.rel_append (List.rel_append hfront hwhere)
    hgroups) horder) (paging_alike h shape))

theorem deletion_alike : Agree (PiecesAlike R) (b.deletion write) (d.deletion write') := by
  unfold deletion
  rw [h.binding]
  refine (conditions_alike h hw).bind fun filter filter' hfilter => ?_
  cases hfilter with
  | none => exact .ok (pieces_text _)
  | some hps => exact .ok (.cons (.text _) (.cons (.text _) hps))

end Builder

/-- The same builders under the same numbers. -/
def Shelf.Alike (R : Value → Value → Prop) (s t : Shelf) : Prop :=
  List.Forall₂ (Builder.Alike R) s.builders t.builders

namespace Shelf

variable {s t : Shelf}

theorem get_alike (h : s.Alike R t) (id : Nat) :
    Option.Rel (Builder.Alike R) (s.get? id) (t.get? id) := by
  obtain ⟨bs⟩ := s
  obtain ⟨ds⟩ := t
  unfold Alike at h
  unfold get?
  simp only at h ⊢
  induction h generalizing id with
  | nil => exact .none
  | cons head tail ih =>
      cases id with
      | zero => exact .some head
      | succ id => exact ih id

theorem get_cases (h : s.Alike R t) (id : Nat) :
    (s.get? id = none ∧ t.get? id = none) ∨
      ∃ b d, s.get? id = some b ∧ t.get? id = some d ∧ b.Alike R d := by
  have hget := get_alike h id
  cases hb : s.get? id with
  | none =>
      cases hd : t.get? id with
      | none => exact .inl ⟨rfl, rfl⟩
      | some d => rw [hb, hd] at hget; cases hget
  | some b =>
      cases hd : t.get? id with
      | none => rw [hb, hd] at hget; cases hget
      | some d =>
          rw [hb, hd] at hget
          cases hget with
          | some hbd => exact .inr ⟨b, d, rfl, rfl, hbd⟩

theorem write_alike (h : s.Alike R t) (fuel : Nat) : WritesAlike R (s.write fuel) (t.write fuel) := by
  induction fuel with
  | zero => exact fun id => .error _
  | succ fuel ih =>
      intro id
      rw [write, write]
      rcases get_cases h id with ⟨hb, hd⟩ | ⟨b, d, hb, hd, hbd⟩
      · rw [hb, hd]
        exact .error _
      · rw [hb, hd]
        exact Builder.pieces_alike hbd ih {}

theorem embedded_alike (h : s.Alike R t) : WritesAlike R s.embedded t.embedded := by
  unfold embedded
  rw [List.Forall₂.length_eq h]
  exact write_alike h _

theorem toSql_alike (h : s.Alike R t) {b d : Builder} (hb : b.Alike R d) :
    Agree (BoundAlike R) (s.toSql b) (t.toSql d) := by
  unfold toSql
  rw [hb.stage]
  split
  · exact .error _
  · exact (Builder.pieces_alike hb (embedded_alike h) {}).map fun _ _ => bind_alike

end Shelf

end TableLoom.Query
