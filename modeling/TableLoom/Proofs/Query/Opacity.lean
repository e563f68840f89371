import TableLoom.Proofs.Query.Alike
import TableLoom.Proofs.Query.Outcome

/-!
Bound values stay out of the text. Two runs whose calls differ in bound values alone refuse the same
calls for the same reasons and write the same statements. Their parameters correspond: in each place
stand the values that the two runs supplied in one place of their calls.
-/

namespace TableLoom.Query

/-- The values that a comparison binds, where the operator can take what it is given. -/
def Operator.takes (op : Operator) (v : Value) : Option (List Value) :=
  match op with
  | .isNull | .isNotNull => some []
  | .in_ | .notIn => members? v
  | .between | .notBetween =>
    match v with
    | .list [low, high] => some [low, high]
    | _ => none
  | _ =>
    match v with
    | .null => none
    | v => some [v]

/-- The values that a clause binds, from left to right. -/
def Clause.values : Clause → List Value
  | .selectRaw _ params | .rawCondition _ _ params | .having _ params => params
  | .condition _ _ operator v =>
    match readOperator operator with
    | .ok op => (op.takes v).getD []
    | .error _ => []
  | .havingAggregate _ _ _ v => [v]
  | .include_ _ (some r) => r.params
  | _ => []

def Clause.bindsValues : Clause → Bool
  | .selectRaw .. | .rawCondition .. | .having .. | .condition .. | .havingAggregate ..
  | .include_ _ (some _) => true
  | _ => false

def Call.values : Call → List Value
  | .clause _ c => c.values
  | _ => []

/-- Clauses that differ in bound values alone: as many are bound in both, and corresponding ones are
related. -/
inductive Clause.Alike (R : Value → Value → Prop) : Clause → Clause → Prop
  | selectRaw {sql : Value} {params params' : List Value} (h : List.Forall₂ R params params') :
      Alike R (.selectRaw sql params) (.selectRaw sql params')
  | condition {link : Link} {column operator v w : Value}
      (h : ∀ op, readOperator operator = .ok op →
        Option.Rel (List.Forall₂ R) (op.takes v) (op.takes w)) :
      Alike R (.condition link column operator v) (.condition link column operator w)
  | rawCondition {link : Link} {sql : Value} {params params' : List Value}
      (h : List.Forall₂ R params params') :
      Alike R (.rawCondition link sql params) (.rawCondition link sql params')
  | include_ {relation filter orderBy limit : Value} {params params' : List Value}
      (h : List.Forall₂ R params params') :
      Alike R (.include_ relation (some ⟨filter, params, orderBy, limit⟩))
        (.include_ relation (some ⟨filter, params', orderBy, limit⟩))
  | having {sql : Value} {params params' : List Value} (h : List.Forall₂ R params params') :
      Alike R (.having sql params) (.having sql params')
  | havingAggregate {aggregate column operator v w : Value} (h : R v w) :
      Alike R (.havingAggregate aggregate column operator v)
        (.havingAggregate aggregate column operator w)
  | same {c : Clause} (h : c.bindsValues = false) : Alike R c c

inductive Call.Alike (R : Value → Value → Prop) : Call → Call → Prop
  | make (binding : Binding) (table : Value) : Alike R (.make binding table) (.make binding table)
  | clause (id : Nat) {c d : Clause} (h : c.Alike R d) : Alike R (.clause id c) (.clause id d)
  | reset (id : Nat) : Alike R (.reset id) (.reset id)
  | release (id : Nat) : Alike R (.release id) (.release id)
  | send (id : Nat) (t : Terminal) : Alike R (.send id t) (.send id t)

variable {R : Value → Value → Prop}

theorem rawParts_alike (parts : List (List Char)) {vs ws : List Value} (h : List.Forall₂ R vs ws) :
    PhrasesAlike R (rawParts parts vs) (rawParts parts ws) := by
  induction parts generalizing vs ws with
  | nil => exact .nil
  | cons s rest ih =>
      cases rest with
      | nil => exact .cons (.text _) .nil
      | cons t rest =>
          cases h with
          | nil => exact .cons (.text _) .nil
          | cons head tail => exact .cons (.text _) (.cons (.slot head) (ih tail))

theorem readRaw_alike (sql : Value) {vs ws : List Value} (h : List.Forall₂ R vs ws) :
    Agree (PhrasesAlike R) (readRaw sql vs) (readRaw sql ws) := by
  unfold readRaw
  rw [List.Forall₂.length_eq h]
  split
  · simp only
    split
    · exact .ok (rawParts_alike _ h)
    · exact .error _
  · simp only
    split
    · exact .ok (.cons .unwritable .nil)
    · exact .error _
  · exact .error _
  · exact .error _

theorem slots_alike {vs ws : List Value} (h : List.Forall₂ R vs ws) :
    PhrasesAlike R (slots vs) (slots ws) := by
  induction h with
  | nil => exact .nil
  | cons head tail ih =>
      cases tail with
      | nil => exact .cons (.slot head) .nil
      | cons next rest => exact .cons (.slot head) (.cons (.text _) ih)

/-- What a comparison makes of the values that it binds. -/
def Operator.compared (op : Operator) (column : String) (vs : List Value) : Except Fault Phrase :=
  match op with
  | .isNull | .isNotNull => .ok [.text s!"{column} {op.sql}"]
  | .in_ | .notIn =>
    if vs.isEmpty then .error (.listEmpty op column)
    else .ok (.text s!"{column} {op.sql} (" :: slots vs ++ [.text ")"])
  | _ => .ok (.text s!"{column} {op.sql} " :: joined [.text " AND "] (vs.map ([.slot ·])))

theorem compared_alike (op : Operator) (column : String) {vs ws : List Value}
    (h : List.Forall₂ R vs ws) :
    Agree (PhrasesAlike R) (op.compared column vs) (op.compared column ws) := by
  have hlist : PhrasesAlike R (.text s!"{column} {op.sql} (" :: slots vs ++ [.text ")"])
      (.text s!"{column} {op.sql} (" :: slots ws ++ [.text ")"]) :=
    .cons (.text _) (List.rel_append (slots_alike h) (.cons (.text _) .nil))
  have hslots : List.Forall₂ (PhrasesAlike R) (vs.map ([.slot ·])) (ws.map ([.slot ·])) :=
    List.rel_map (fun _ _ hvw => .cons (.slot hvw) .nil) h
  unfold Operator.compared
  split
  · exact .ok (.cons (.text _) .nil)
  · exact .ok (.cons (.text _) .nil)
  · rw [isEmpty_alike h]
    split
    · exact .error _
    · exact .ok hlist
  · rw [isEmpty_alike h]
    split
    · exact .error _
    · exact .ok hlist
  · exact .ok (.cons (.text _) (joined_alike (.cons (.text _) .nil) hslots))

/-- A comparison depends on what it is given through the values that it binds. -/
theorem comparison_eq (op : Operator) (column : String) :
    ∃ e, ∀ v, comparison op column v = (op.takes v).elim (.error e) (op.compared column) := by
  have membership : ∀ (op : Operator) (v : Value), op = .in_ ∨ op = .notIn →
      comparison op column v =
        (op.takes v).elim (.error (.listExpected op column)) (op.compared column) := by
    rintro op v (rfl | rfl)
    all_goals
      simp only [comparison, Operator.takes]
      rcases members? v with _ | _ | ⟨first, rest⟩ <;> rfl
  have range : ∀ (op : Operator) (v : Value), op = .between ∨ op = .notBetween →
      comparison op column v =
        (op.takes v).elim (.error (.pairExpected op column)) (op.compared column) := by
    rintro op v (rfl | rfl)
    all_goals
      cases v with
      | list items => rcases items with _ | ⟨low, _ | ⟨high, _ | ⟨_, _⟩⟩⟩ <;> rfl
      | _ => rfl
  cases op with
  | in_ => exact ⟨_, fun v => membership .in_ v (.inl rfl)⟩
  | notIn => exact ⟨_, fun v => membership .notIn v (.inr rfl)⟩
  | between => exact ⟨_, fun v => range .between v (.inl rfl)⟩
  | notBetween => exact ⟨_, fun v => range .notBetween v (.inr rfl)⟩
  | _ => exact ⟨.comparesNothing column, fun v => by cases v <;> rfl⟩

theorem comparison_alike (op : Operator) (column : String) {v w : Value}
    (h : Option.Rel (List.Forall₂ R) (op.takes v) (op.takes w)) :
    Agree (PhrasesAlike R) (comparison op column v) (comparison op column w) := by
  obtain ⟨e, hcomparison⟩ := comparison_eq op column
  rw [hcomparison, hcomparison]
  generalize op.takes v = x, op.takes w = y at h
  cases h with
  | none => exact .error e
  | some hvalues => exact compared_alike op column hvalues

theorem readCondition_alike (b : Binding) (column operator : Value) {v w : Value}
    (h : ∀ op, readOperator operator = .ok op →
      Option.Rel (List.Forall₂ R) (op.takes v) (op.takes w)) :
    Agree (PhrasesAlike R) (readCondition b column operator v)
      (readCondition b column operator w) := by
  exact Agree.bind_same fun op hop => Agree.bind_same fun name _ =>
    comparison_alike op name (h op hop)

theorem readOptions_alike (filter orderBy limit : Value) {vs ws : List Value}
    (h : List.Forall₂ R vs ws) :
    Agree (IncludeOptions.Alike R) (readOptions ⟨filter, vs, orderBy, limit⟩)
      (readOptions ⟨filter, ws, orderBy, limit⟩) := by
  unfold readOptions
  extract_lets limited limited'
  have hlimited : ∀ p q, Option.Rel (PhrasesAlike R) p q →
      Agree (IncludeOptions.Alike R) (limited p) (limited' q) := by
    intro p q hpq
    simp only [limited, limited']
    split
    · exact .ok ⟨hpq, rfl, rfl⟩
    · exact Agree.bind_same fun n _ => .ok ⟨hpq, rfl, rfl⟩
  simp only
  split
  · exact hlimited _ _ .none
  · exact Agree.bind ((readRaw_alike _ h).map fun p q hpq => .some hpq) hlimited

theorem readInclude_alike (b : Binding) (relation filter orderBy limit : Value)
    {vs ws : List Value} (h : List.Forall₂ R vs ws) :
    Agree (IncludesAlike R) (readInclude b relation (some ⟨filter, vs, orderBy, limit⟩))
      (readInclude b relation (some ⟨filter, ws, orderBy, limit⟩)) := by
  unfold readInclude
  extract_lets known found found'
  have hfound : ∀ u, Agree (IncludesAlike R) (found u) (found' u) := by
    intro u
    simp only [found, found']
    cases known with
    | none => exact .error _
    | some r =>
        exact (readOptions_alike filter orderBy limit h).bind fun o o' ho => .ok ⟨rfl, ho⟩
  split
  · exact .error _
  · exact .error _
  · exact hfound ()

theorem putInclude_alike (r : Relation) {o o' : IncludeOptions} (ho : o.Alike R o')
    {xs ys : List (Relation × IncludeOptions)} (h : List.Forall₂ (IncludesAlike R) xs ys) :
    List.Forall₂ (IncludesAlike R) (putInclude r o xs) (putInclude r o' ys) := by
  induction h with
  | nil => exact .cons ⟨rfl, ho⟩ .nil
  | cons head tail ih =>
      rw [putInclude, putInclude, head.1]
      split
      · exact .cons ⟨rfl, ho⟩ tail
      · exact .cons head ih

/-- Two clauses that add alike clauses and are refused for the same reason. -/
def AddedAlike (R : Value → Value → Prop) (x y : Clauses × Option Fault) : Prop :=
  x.1.Alike R y.1 ∧ x.2 = y.2

theorem embedded_refl (word : String) (query : Option Nat) :
    PhrasesAlike R [.text word, embed query, .text ")"] [.text word, embed query, .text ")"] := by
  cases query with
  | none => exact .cons (.text _) (.cons .unwritable (.cons (.text _) .nil))
  | some id => exact .cons (.text _) (.cons (.query id) (.cons (.text _) .nil))

theorem forall₂_texts (texts : List String) :
    List.Forall₂ (PhrasesAlike R) (texts.map fun t => [.text t]) (texts.map fun t => [.text t]) := by
  refine List.forall₂_same.mpr fun p hp => ?_
  obtain ⟨t, _, rfl⟩ := List.mem_map.mp hp
  exact .cons (.text t) .nil

namespace Clauses

variable {c d : Clauses}

theorem after_alike (h : c.Alike R d) {α β : Type} {S : α → β → Prop} {x : Except Fault α}
    {y : Except Fault β} (read : Agree S x y) {f : α → Clauses} {g : β → Clauses}
    (next : ∀ a b, S a b → (f a).Alike R (g b)) : AddedAlike R (c.after x f) (d.after y g) := by
  cases read with
  | error e => exact ⟨h, rfl⟩
  | ok hab => exact ⟨next _ _ hab, rfl⟩

theorem after_same (h : c.Alike R d) {α : Type} (x : Except Fault α) {f g : α → Clauses}
    (next : ∀ a, (f a).Alike R (g a)) : AddedAlike R (c.after x f) (d.after x g) := by
  cases x with
  | error e => exact ⟨h, rfl⟩
  | ok a => exact ⟨next a, rfl⟩

theorem Alike.select (h : c.Alike R d) {ps qs : List Phrase}
    (hps : List.Forall₂ (PhrasesAlike R) ps qs) :
    Clauses.Alike R { c with selects := c.selects ++ ps } { d with selects := d.selects ++ qs } :=
  { h with selects := List.rel_append h.selects hps }

theorem Alike.condition (h : c.Alike R d) (link : Link) {p q : Phrase} (hp : PhrasesAlike R p q) :
    Clauses.Alike R { c with conditions := c.conditions ++ [⟨link, p⟩] }
      { d with conditions := d.conditions ++ [⟨link, q⟩] } :=
  { h with conditions := List.rel_append h.conditions (.cons ⟨rfl, hp⟩ .nil) }

theorem Alike.having (h : c.Alike R d) {p q : Phrase} (hp : PhrasesAlike R p q) :
    Clauses.Alike R { c with havings := c.havings ++ [p] } { d with havings := d.havings ++ [q] } :=
  { h with havings := List.rel_append h.havings (.cons hp .nil) }

/-- A clause without values adds the same to alike clauses. -/
theorem add_same (h : c.Alike R d) (b : Binding) {x : Clause} (hx : x.bindsValues = false) :
    AddedAlike R (c.add b x) (d.add b x) := by
  cases x with
  | select fields => exact ⟨h.select (forall₂_texts _), rfl⟩
  | distinct => exact ⟨{ h with distinct := rfl }, rfl⟩
  | selectAggregate aggregate column label =>
      exact after_same h _ fun t => h.select (forall₂_texts [t])
  | existence negated query => exact ⟨h.condition .and (embedded_refl _ query), rfl⟩
  | subquery column operator query =>
      refine after_alike h (S := PhrasesAlike R) ?_ fun p q => h.condition .and
      refine Agree.bind_same fun op _ => ?_
      split
      · exact .error _
      · exact Agree.bind_same fun name _ => .ok (embedded_refl _ query)
  | deleted rows => exact ⟨{ h with deleted := rfl }, rfl⟩
  | join table left right kind =>
      exact after_same h _ fun j => { h with joins := congrArg (· ++ [j]) h.joins }
  | include_ relation options =>
      cases options with
      | some r => cases hx
      | none =>
          refine after_alike h (S := IncludesAlike R) ?_ fun a b hab => ?_
          · unfold readInclude
            extract_lets known found
            split
            · exact .error _
            · exact .error _
            · simp only [found]
              cases known <;> exact .error _
          · obtain ⟨r, o⟩ := a
            obtain ⟨r', o'⟩ := b
            obtain rfl : r = r' := hab.1
            exact { h with includes := putInclude_alike r hab.2 h.includes }
  | groupBy columns => exact ⟨{ h with groupBy := congrArg (· ++ _) h.groupBy }, rfl⟩
  | groupByRaw sql => exact ⟨{ h with groupBy := congrArg (· ++ _) h.groupBy }, rfl⟩
  | orderBy column direction =>
      exact after_same h _ fun t => { h with orderBy := congrArg (· ++ [.text t]) h.orderBy }
  | orderByRaw sql => exact ⟨{ h with orderBy := congrArg (· ++ _) h.orderBy }, rfl⟩
  | limit n => exact after_same h _ fun n => { h with limit := rfl }
  | offset n => exact after_same h _ fun n => { h with offset := rfl }
  | paginate page perPage =>
      exact after_same h _ fun n => { h with limit := rfl, offset := rfl }
  | selectRaw _ _ => cases hx
  | condition _ _ _ _ => cases hx
  | rawCondition _ _ _ => cases hx
  | having _ _ => cases hx
  | havingAggregate _ _ _ _ => cases hx

theorem add_alike (h : c.Alike R d) (b : Binding) {x y : Clause} (hxy : x.Alike R y) :
    AddedAlike R (c.add b x) (d.add b y) := by
  cases hxy with
  | selectRaw hparams =>
      exact after_alike h (readRaw_alike _ hparams) fun p q hp => h.select (.cons hp .nil)
  | condition hvalues =>
      exact after_alike h (readCondition_alike b _ _ hvalues) fun p q => h.condition _
  | rawCondition hparams => exact after_alike h (readRaw_alike _ hparams) fun p q => h.condition _
  | include_ hparams =>
      refine after_alike h (readInclude_alike b _ _ _ _ hparams) fun (r, o) (r', o') hro => ?_
      obtain rfl : r = r' := hro.1
      exact { h with includes := putInclude_alike r hro.2 h.includes }
  | having hparams => exact after_alike h (readRaw_alike _ hparams) fun p q => h.having
  | @havingAggregate aggregate column operator v w hvalue =>
      refine after_alike h (S := PhrasesAlike R) ?_ fun p q => h.having
      refine Agree.bind_same fun agg _ => Agree.bind_same fun op _ => ?_
      split
      · exact .error _
      · exact Agree.bind_same fun target _ => .ok (.cons (.text _) (.cons (.slot hvalue) .nil))
  | same hx => exact add_same h b hx

end Clauses

namespace Builder

variable {b d : Builder}

theorem begin_alike (h : b.Alike R d) : Agree (Builder.Alike R) b.begin_ d.begin_ := by
  unfold begin_
  rw [h.stage]
  split
  · exact .error _
  · exact .error _
  · exact .ok { h with stage := rfl }

theorem reset_alike (h : b.Alike R d) : Agree (Builder.Alike R) b.reset d.reset := by
  unfold reset
  rw [h.stage]
  split
  · exact .error _
  · exact .ok { h with stage := rfl, clauses := .empty }

theorem release_alike (h : b.Alike R d) : b.release.Alike R d.release :=
  { h with stage := rfl, clauses := .empty }

theorem add_alike (h : b.Alike R d) {x y : Clause} (hxy : x.Alike R y) :
    (b.add x).1.Alike R (d.add y).1 ∧ (b.add x).2 = (d.add y).2 := by
  have hcheck : precheck x = precheck y := by cases hxy <;> rfl
  have hrefusal : b.refusal? x = d.refusal? y := by
    unfold refusal? closed?
    rw [hcheck, h.stage]
  rw [add_eq, add_eq, hrefusal]
  split
  · exact ⟨h, rfl⟩
  · have hadded := Clauses.add_alike h.clauses b.binding hxy
    rw [← h.binding]
    exact ⟨⟨rfl, rfl, hadded.1⟩, hadded.2⟩

theorem target_alike (h : b.Alike R d) (model : Option RecordType) :
    b.target model = d.target model := by
  unfold target
  rw [h.binding]
  cases model with
  | some m => rfl
  | none =>
      have hincludes := h.clauses.includes
      revert hincludes
      generalize b.clauses.includes = xs, d.clauses.includes = ys
      rintro (_ | ⟨head, tail⟩)
      · rfl
      · cases tail with
        | nil => simp only [head.1]
        | cons next rest => rfl

theorem plan_alike (h : b.Alike R d) (t : Terminal) : b.plan t = d.plan t := by
  cases t with
  | fetch model => simp only [plan, target_alike h]
  | fetchOne model => simp only [plan, target_alike h]
  | fetchRaw => rfl
  | count => simp only [plan, h.clauses.distinct]
  | exists_ => rfl
  | pluck column => simp only [plan, h.binding]
  | aggregate function column => simp only [plan, h.binding]
  | delete => simp only [plan, h.clauses.joins, isEmpty_alike h.clauses.includes]

end Builder

/-- What a call comes to in two runs: the same, up to the values of the statement. -/
inductive Outcome.Alike (R : Value → Value → Prop) : Outcome → Outcome → Prop
  | taken : Alike R .taken .taken
  | sent {s t : Sent} (statement : BoundAlike R s.statement t.statement)
      (reading : s.reading = t.reading) : Alike R (.sent s) (.sent t)
  | refused (e : Fault) : Alike R (.refused e) (.refused e)

namespace Outcome

theorem ofBuilder_alike {x y : Except Fault Builder} (h : Agree (Builder.Alike R) x y) :
    (ofBuilder x).Alike R (ofBuilder y) := by
  cases h with
  | error e => exact .refused e
  | ok _ => exact .taken

theorem ofFault_alike (fault : Option Fault) : (ofFault fault).Alike R (ofFault fault) := by
  cases fault with
  | none => exact .taken
  | some e => exact .refused e

end Outcome

namespace Shelf

variable {s t : Shelf}

theorem set_alike (h : s.Alike R t) (id : Nat) {b d : Builder} (hbd : b.Alike R d) :
    (s.set id b).Alike R (t.set id d) := by
  obtain ⟨bs⟩ := s
  obtain ⟨ds⟩ := t
  unfold Alike at h ⊢
  unfold set
  simp only at h ⊢
  induction h generalizing id with
  | nil => exact .nil
  | cons head tail ih =>
      cases id with
      | zero => exact .cons hbd tail
      | succ id => exact .cons head (ih id)

theorem push_alike (h : s.Alike R t) {b d : Builder} (hbd : b.Alike R d) :
    (s.push b).1.Alike R (t.push d).1 :=
  List.rel_append h (.cons hbd .nil)

theorem change_alike (h : s.Alike R t) (id : Nat) {f g : Builder → Except Fault Builder}
    (next : ∀ b d, b.Alike R d → Agree (Builder.Alike R) (f b) (g d)) :
    (s.change id f).Alike R (t.change id g) := by
  unfold change
  rcases get_cases h id with ⟨hb, hd⟩ | ⟨b, d, hb, hd, hbd⟩
  · rw [hb, hd]
    exact h
  · simp only [hb, hd]
    rcases (next b d hbd).cases_ with ⟨e, hf, hg⟩ | ⟨b', d', hf, hg, hbd'⟩
    · rw [hf, hg]
      exact h
    · rw [hf, hg]
      exact set_alike h id hbd'

theorem asked_alike (h : s.Alike R t) (id : Nat) {f g : Builder → Outcome}
    (next : ∀ b d, b.Alike R d → (f b).Alike R (g d)) : (s.asked id f).Alike R (t.asked id g) := by
  unfold asked
  rcases get_cases h id with ⟨hb, hd⟩ | ⟨b, d, hb, hd, hbd⟩
  · rw [hb, hd]
    exact .refused _
  · rw [hb, hd]
    exact next b d hbd

theorem send_alike (h : s.Alike R t) (id : Nat) (terminal : Terminal) :
    (s.send id terminal).1.Alike R (t.send id terminal).1 ∧
      (Outcome.ofSent (s.send id terminal).2).Alike R (.ofSent (t.send id terminal).2) := by
  unfold send
  rcases get_cases h id with ⟨hb, hd⟩ | ⟨b, d, hb, hd, hbd⟩
  · rw [hb, hd]
    exact ⟨h, .refused _⟩
  simp only [hb, hd, Builder.plan_alike hbd terminal]
  cases hplan : d.plan terminal with
  | error e => exact ⟨h, .refused e⟩
  | ok plan =>
      rcases (Builder.begin_alike hbd).cases_ with ⟨e, hb', hd'⟩ | ⟨b', d', hb', hd', hbd'⟩
      · simp only [hb', hd']
        exact ⟨h, .refused e⟩
      simp only [hb', hd']
      have hset := set_alike h id hbd'
      have hwritten : Agree (PiecesAlike R)
          (if plan.deletes then b'.deletion (s.set id b').embedded
            else b'.pieces (s.set id b').embedded plan.shape)
          (if plan.deletes then d'.deletion (t.set id d').embedded
            else d'.pieces (t.set id d').embedded plan.shape) := by
        split
        · exact Builder.deletion_alike hbd' (embedded_alike hset)
        · exact Builder.pieces_alike hbd' (embedded_alike hset) plan.shape
      have hwrap : ∀ {ps qs}, PiecesAlike R ps qs → PiecesAlike R (plan.wrap ps) (plan.wrap qs) := by
        intro ps qs hpq
        rcases Builder.wrap_cases hplan with hplain | ⟨front, back, hframes⟩
        · rw [hplain]
          exact hpq
        · rw [hframes]
          exact .cons (.text front) (List.rel_append hpq (pieces_text back))
      refine ⟨hset, ?_⟩
      rcases hwritten.cases_ with ⟨e, hps, hqs⟩ | ⟨ps, qs, hps, hqs, hpq⟩
      · rw [hps, hqs]
        exact .refused e
      · rw [hps, hqs]
        exact .sent (bind_alike (hwrap hpq)) rfl

/-- A call comes to the same in alike runs and leaves them alike. -/
theorem step_alike (h : s.Alike R t) {call call' : Call} (hcall : call.Alike R call') :
    (s.step call).Alike R (t.step call') ∧ (s.outcome call).Alike R (t.outcome call') := by
  cases hcall with
  | make binding table =>
      simp only [step, outcome]
      cases hmake : Builder.make binding table with
      | error e => exact ⟨h, .refused e⟩
      | ok b =>
          refine ⟨push_alike h ⟨rfl, rfl, ?_⟩, .taken⟩
          rw [Builder.clauses_of_make hmake]
          exact .empty
  | clause id hxy =>
      have hadded := fun b d (hbd : Builder.Alike R b d) => Builder.add_alike hbd hxy
      refine ⟨change_alike h id fun b d hbd => .ok (hadded b d hbd).1, ?_⟩
      refine asked_alike h id fun b d hbd => ?_
      rw [(hadded b d hbd).2]
      exact Outcome.ofFault_alike _
  | reset id =>
      refine ⟨change_alike h id fun b d => Builder.reset_alike, ?_⟩
      exact asked_alike h id fun b d hbd => Outcome.ofBuilder_alike (Builder.reset_alike hbd)
  | release id =>
      refine ⟨change_alike h id fun b d hbd => .ok (Builder.release_alike hbd), ?_⟩
      exact asked_alike h id fun b d hbd => .taken
  | send id terminal => exact send_alike h id terminal

theorem runs_alike {calls calls' : List Call} (hcalls : List.Forall₂ (Call.Alike R) calls calls')
    (h : s.Alike R t) :
    (calls.foldl step s).Alike R (calls'.foldl step t) ∧
      List.Forall₂ (Outcome.Alike R) (s.outcomes calls) (t.outcomes calls') := by
  induction hcalls generalizing s t with
  | nil => exact ⟨h, .nil⟩
  | cons head tail ih =>
      obtain ⟨hstep, houtcome⟩ := step_alike h head
      obtain ⟨hrun, houtcomes⟩ := ih hstep
      exact ⟨hrun, .cons houtcome houtcomes⟩

end Shelf

/-- Two values that two lists supply in the same place. -/
def AtOnce (vs ws : List Value) (v w : Value) : Prop :=
  ∃ j : Nat, vs[j]? = some v ∧ ws[j]? = some w

theorem forall₂_atOnce {vs ws : List Value} (h : List.Forall₂ R vs ws) :
    List.Forall₂ (AtOnce vs ws) vs ws := by
  refine List.forall₂_iff_get.mpr ⟨h.length_eq, fun j hv hw => ⟨j, ?_, ?_⟩⟩
  · exact List.getElem?_eq_getElem hv
  · exact List.getElem?_eq_getElem hw

theorem rel_getD {x y : Option (List Value)} (h : Option.Rel (List.Forall₂ R) x y) :
    Option.Rel (List.Forall₂ (AtOnce (x.getD []) (y.getD []))) x y := by
  cases h with
  | none => exact .none
  | some h => exact .some (forall₂_atOnce h)

theorem rel_imp {α β : Type} {S T : α → β → Prop} (hST : ∀ {a b}, S a b → T a b) {x : Option α}
    {y : Option β} (h : Option.Rel S x y) : Option.Rel T x y := by
  cases h with
  | none => exact .none
  | some h => exact .some (hST h)

theorem Clause.Alike.atOnce {x y : Clause} (h : x.Alike R y) :
    x.Alike (AtOnce x.values y.values) y := by
  cases h with
  | selectRaw hparams => exact .selectRaw (forall₂_atOnce hparams)
  | @condition link column operator v w hvalues =>
      refine .condition fun op hop => ?_
      simp only [Clause.values, hop]
      exact rel_getD (hvalues op hop)
  | rawCondition hparams => exact .rawCondition (forall₂_atOnce hparams)
  | include_ hparams => exact .include_ (forall₂_atOnce hparams)
  | having hparams => exact .having (forall₂_atOnce hparams)
  | havingAggregate _ => exact .havingAggregate ⟨0, rfl, rfl⟩
  | same hx => exact .same hx

theorem Clause.Alike.mono {S : Value → Value → Prop} (hRS : ∀ v w, R v w → S v w) {x y : Clause}
    (h : x.Alike R y) : x.Alike S y := by
  have hlist : ∀ {vs ws}, List.Forall₂ R vs ws → List.Forall₂ S vs ws := List.Forall₂.imp hRS
  cases h with
  | selectRaw hparams => exact .selectRaw (hlist hparams)
  | condition hvalues =>
      exact .condition fun op hop => rel_imp hlist (hvalues op hop)
  | rawCondition hparams => exact .rawCondition (hlist hparams)
  | include_ hparams => exact .include_ (hlist hparams)
  | having hparams => exact .having (hlist hparams)
  | havingAggregate hvalue => exact .havingAggregate (hRS _ _ hvalue)
  | same hx => exact .same hx

/-- Two values that two runs supply in the same place of the same call. -/
def SamePlace (calls calls' : List Call) (v w : Value) : Prop :=
  ∃ (k : Nat) (call call' : Call), calls[k]? = some call ∧ calls'[k]? = some call' ∧
    AtOnce call.values call'.values v w

theorem forall₂_samePlace {calls calls' : List Call} (h : List.Forall₂ (Call.Alike R) calls calls') :
    List.Forall₂ (Call.Alike (SamePlace calls calls')) calls calls' := by
  refine List.forall₂_iff_get.mpr ⟨h.length_eq, fun k hk hk' => ?_⟩
  have hcall : calls[k]? = some (calls.get ⟨k, hk⟩) := List.getElem?_eq_getElem hk
  have hcall' : calls'[k]? = some (calls'.get ⟨k, hk'⟩) := List.getElem?_eq_getElem hk'
  have halike := List.forall₂_iff_get.mp h |>.2 k hk hk'
  revert halike hcall hcall'
  generalize calls.get ⟨k, hk⟩ = call, calls'.get ⟨k, hk'⟩ = call'
  intro hcall hcall' halike
  cases halike with
  | make binding table => exact .make binding table
  | clause id hxy =>
      exact .clause id (hxy.atOnce.mono fun v w hvw => ⟨k, _, _, hcall, hcall', hvw⟩)
  | reset id => exact .reset id
  | release id => exact .release id
  | send id terminal => exact .send id terminal

namespace Shelf

/-- Two runs that differ in bound values alone, of which as many are supplied in every place, accept
the same calls and write the same texts, and each parameter of the one comes from the place that the
parameter of the other comes from. -/
theorem values_stay_parameters (calls calls' : List Call)
    (differ : List.Forall₂ (Call.Alike fun _ _ => True) calls calls') :
    List.Forall₂ (Outcome.Alike (SamePlace calls calls')) (outcomes {} calls) (outcomes {} calls') ∧
    ∀ id, Option.Rel
      (fun b d => Agree (BoundAlike (SamePlace calls calls'))
        ((run calls).toSql b) ((run calls').toSql d))
      ((run calls).get? id) ((run calls').get? id) := by
  -- The calls are related by the places of their values first: the runs then keep that relation.
  obtain ⟨hrun, houtcomes⟩ := runs_alike (forall₂_samePlace differ) (s := {}) (t := {}) .nil
  refine ⟨houtcomes, fun id => ?_⟩
  rcases get_cases hrun id with ⟨hb, hd⟩ | ⟨b, d, hb, hd, hbd⟩
  · rw [run, hb, run, hd]
    exact .none
  · rw [run, hb, run, hd]
    exact .some (toSql_alike hrun hbd)

/-- A list, a query in parentheses that holds raw text, and a condition on groups. -/
def filtered (total name other count : Value) : List Call :=
  [.make { label := "Users", table := "users", selectAll := "" } .null,
   .make { label := "Orders", table := "orders", selectAll := "" } .null,
   .clause 1 (.rawCondition .and (.text "total > ?") [total]),
   .clause 0 (.condition .and (.text "name") (.text "in") (.list [name, other])),
   .clause 0 (.existence false (some 1)),
   .clause 0 (.having (.text "COUNT(*) > ?") [count]),
   .send 0 .fetchRaw]

theorem values_stay_parameters_hostile :
    let plain := filtered (.int 5) (.text "ann") (.text "bob") (.int 2)
    let hostile := filtered .null (.text "') OR 1=1 --") (.text "?") (.text "$1")
    List.Forall₂ (Call.Alike fun _ _ => True) plain hostile ∧
    ∃ b d st st', (run plain).get? 0 = some b ∧ (run hostile).get? 0 = some d ∧
      (run plain).toSql b = .ok st ∧ (run hostile).toSql d = .ok st' ∧
      BoundAlike (SamePlace plain hostile) st st' ∧
      st'.sql = "SELECT users.* FROM users WHERE name IN ($1, $2) AND EXISTS (SELECT orders.* "
        ++ "FROM orders WHERE total > $3) HAVING COUNT(*) > $4" ∧
      st'.params.map Value.literal = ["\"') OR 1=1 --\"", "'?'", "None", "'$1'"] := by
  intro plain hostile
  have hdiffer : List.Forall₂ (Call.Alike fun _ _ => True) plain hostile := by
    have hin : readOperator (.text "in") = .ok .in_ := by rfl
    refine .cons (.make _ _) (.cons (.make _ _) (.cons (.clause 1 ?_) (.cons (.clause 0 ?_) ?_)))
    · exact .rawCondition (.cons trivial .nil)
    · refine .condition fun op hop => ?_
      obtain rfl : .in_ = op := Except.ok.inj (hin.symm.trans hop)
      exact .some (.cons trivial (.cons trivial .nil))
    · refine .cons (.clause 0 (.same rfl)) (.cons (.clause 0 ?_) (.cons (.send 0 _) .nil))
      exact .having (.cons trivial .nil)
  obtain ⟨_, hstatements⟩ := values_stay_parameters plain hostile hdiffer
  have hsql : ((run hostile).get? 0).map (fun d => ((run hostile).toSql d).toOption.map (·.sql)) =
      some (some ("SELECT users.* FROM users WHERE name IN ($1, $2) AND EXISTS (SELECT orders.* "
        ++ "FROM orders WHERE total > $3) HAVING COUNT(*) > $4")) := by
    decide +kernel
  have hparams : ((run hostile).get? 0).map
      (fun d => ((run hostile).toSql d).toOption.map fun st => st.params.map Value.literal) =
      some (some ["\"') OR 1=1 --\"", "'?'", "None", "'$1'"]) := by
    decide +kernel
  have hstatement := hstatements 0
  revert hstatement hsql hparams
  generalize (run plain).get? 0 = x
  generalize (run hostile).get? 0 = y
  intro hsql hparams hstatement
  cases hstatement with
  | none => cases hsql
  | @some b d hbd =>
      rcases hbd.cases_ with ⟨e, _, hd⟩ | ⟨st, st', hb, hd, halike⟩
      · rw [Option.map_some, hd] at hsql
        cases hsql
      · rw [Option.map_some, hd] at hsql hparams
        exact ⟨hdiffer, b, d, st, st', rfl, rfl, hb, hd, halike,
          Option.some.inj (Option.some.inj hsql), Option.some.inj (Option.some.inj hparams)⟩

end Shelf

end TableLoom.Query
