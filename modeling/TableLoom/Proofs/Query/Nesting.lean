import TableLoom.Proofs.Query.Depth
import TableLoom.Proofs.Query.Frames

/-!
Queries in the conditions of other queries, at any depth. Whatever is said by the outermost one, what
the innermost writes stands in it behind its word, in parentheses.
-/

namespace TableLoom.Query

/-- A statement in which another one stands behind a word, but for the numbers. -/
def Shows (outer : Statement.Bound) (word : String) (inner : Statement.Bound) : Prop :=
  ∃ ps qs, outer = bind qs ∧ inner = bind ps ∧ Piece.text word :: ps ++ [.text ")"] <:+: qs

/-- The query that a clause puts among the conditions. -/
def Clause.query? : Clause → Option Nat
  | .existence _ query | .subquery _ _ query => query
  | _ => none

namespace Shelf

/-- Among the conditions of a query stands another one, behind a word. -/
def Links (s : Shelf) (i : Nat) (word : String) (j : Nat) : Prop :=
  ∃ b link, s.get? i = some b ∧
    ⟨link, [.text word, .query j, .text ")"]⟩ ∈ b.clauses.conditions

/-- The same at any depth. -/
def Nests (s : Shelf) (i : Nat) (word : String) (j : Nat) : Prop :=
  ∃ m, Relation.ReflTransGen (fun i m => ∃ w, s.Links i w m) i m ∧ s.Links m word j

/-- A statement that a builder returns, or sends by a terminal operation. -/
def Gives (s : Shelf) (i : Nat) (st : Statement.Bound) : Prop :=
  (∃ b, s.get? i = some b ∧ s.toSql b = .ok st) ∨
    ∃ t sent, (s.send i t).2 = .ok sent ∧ sent.statement = st

end Shelf

theorem expand_embedded {write : Nat → Except Fault (List Piece)} {word : String} {j : Nat}
    {ps : List Piece} (h : expand write [.text word, .query j, .text ")"] = .ok ps) :
    ∃ inner, write j = .ok inner ∧ ps = .text word :: inner ++ [.text ")"] := by
  obtain ⟨rest, hrest, heq⟩ := bind_ok h
  obtain ⟨inner, hinner, heq'⟩ := bind_ok hrest
  obtain rfl := Except.ok.inj heq'
  exact ⟨inner, hinner, (Except.ok.inj heq).symm⟩

theorem isBlank_append (ps qs : List Piece) : isBlank (ps ++ qs) = (isBlank ps && isBlank qs) := by
  induction ps with
  | nil => rfl
  | cons p ps ih =>
      cases p with
      | text s => rw [List.cons_append, isBlank, isBlank, ih, Bool.and_assoc]
      | slot v => rfl

theorem not_isBlank {word : String} {inner ps : List Piece}
    (h : Piece.text word :: inner ++ [.text ")"] <:+: ps) : isBlank ps = false := by
  have hclosed : isBlank [.text ")"] = false := by decide
  obtain ⟨front, back, rfl⟩ := h
  rw [isBlank_append, isBlank_append, isBlank_append, hclosed, Bool.and_false, Bool.and_false,
    Bool.false_and]

namespace Builder

/-- The pieces of a statement of the builder, whichever sections it has. -/
def Writes (b : Builder) (write : Nat → Except Fault (List Piece)) (ps : List Piece) : Prop :=
  b.deletion write = .ok ps ∨ ∃ shape, b.pieces write shape = .ok ps

theorem connect_infix {user : List (Link × List Piece)} {x : Link × List Piece} (hx : x ∈ user) :
    x.2 <:+: connect user := by
  cases user with
  | nil => cases hx
  | cons y rest =>
      rcases List.mem_cons.mp hx with rfl | hx
      · exact (List.prefix_append _ _).isInfix
      · obtain ⟨front, back, hsplit⟩ := List.append_of_mem hx
        rw [connect, hsplit, List.flatMap_append, List.flatMap_cons]
        refine List.IsInfix.trans ?_ (List.suffix_append y.2 _).isInfix
        refine List.IsInfix.trans ?_ (List.suffix_append _ _).isInfix
        exact (List.suffix_cons _ x.2).isInfix.trans (List.prefix_append _ _).isInfix

theorem guarded_infix (guard : Option String) {user : List Piece} (h : isBlank user = false) :
    ∃ rs, guarded guard user = some rs ∧ user <:+: rs := by
  unfold guarded
  rw [h]
  cases guard with
  | none => exact ⟨user, rfl, List.infix_rfl⟩
  | some g =>
      simp only [Bool.false_eq_true, ↓reduceIte]
      split
      · exact ⟨_, rfl, [.text (g ++ " AND (")], [.text ")"], rfl⟩
      · exact ⟨_, rfl, (List.suffix_cons _ user).isInfix⟩

variable {b : Builder} {write : Nat → Except Fault (List Piece)} {word : String} {j : Nat}
  {link : Link} (holds : ⟨link, [.text word, .query j, .text ")"]⟩ ∈ b.clauses.conditions)

include holds

theorem conditions_infix {filter : Option (List Piece)} (h : b.conditions write = .ok filter) :
    ∃ inner rs, write j = .ok inner ∧ filter = some rs ∧
      Piece.text word :: inner ++ [.text ")"] <:+: rs := by
  obtain ⟨user, huser, heq⟩ := bind_ok h
  obtain ⟨x, hx, hwritten⟩ := exists_right_of_mapM huser holds
  obtain ⟨ps, hps, heq'⟩ := bind_ok hwritten
  obtain rfl := Except.ok.inj heq'
  obtain ⟨inner, hinner, rfl⟩ := expand_embedded hps
  have hshown := connect_infix hx
  obtain ⟨rs, hrs, hwithin⟩ := guarded_infix b.guard? (not_isBlank hshown)
  exact ⟨inner, rs, hinner, (Except.ok.inj heq).symm.trans hrs, hshown.trans hwithin⟩

theorem written_infix {qs : List Piece} (h : b.Writes write qs) :
    ∃ inner, write j = .ok inner ∧ Piece.text word :: inner ++ [.text ")"] <:+: qs := by
  rcases h with hdeletion | ⟨shape, hpieces⟩
  · obtain ⟨filter, hfilter, heq⟩ := bind_ok hdeletion
    obtain rfl := Except.ok.inj heq
    obtain ⟨inner, rs, hinner, rfl, hshown⟩ := conditions_infix holds hfilter
    refine ⟨inner, hinner, hshown.trans ?_⟩
    exact (List.suffix_append [.text s!"DELETE FROM {b.binding.table}", .text " WHERE "] rs).isInfix
  · obtain ⟨filter, front, back, hfilter, rfl⟩ := pieces_where hpieces
    obtain ⟨inner, rs, hinner, rfl, hshown⟩ := conditions_infix holds hfilter
    refine ⟨inner, hinner, hshown.trans ?_⟩
    exact ⟨front ++ [.text "WHERE "], back, by simp [whereClause]⟩

omit holds

/-- What a terminal operation sends, given how embedded queries are written. -/
def sends (write : Nat → Except Fault (List Piece)) (b : Builder) (x : Terminal) :
    Except Fault Sent := do
  let plan ← b.plan x
  let _ ← b.begin_
  (if plan.deletes then b.deletion write else b.pieces write plan.shape).map
    fun ps => ⟨bind (plan.wrap ps), plan.reading⟩

end Builder

namespace Shelf

variable {s : Shelf} {i j : Nat} {b : Builder} {word : String}

theorem send_eq (hget : s.get? i = some b) (x : Terminal) :
    (s.send i x).2 = b.sends s.embedded x := by
  unfold send Builder.sends
  rw [hget]
  simp only
  cases b.plan x with
  | error e => rfl
  | ok plan =>
      simp only
      cases hbegin : b.begin_ with
      | error e => rfl
      | ok b' =>
          obtain rfl := Builder.begin_ok hbegin
          have hembedded : (s.set i { b with stage := .executed }).embedded = s.embedded :=
            embedded_set hget rfl rfl
          simp only [hembedded]
          rfl

/-- What stands in a statement at any depth is what is written on its own, with less fuel. -/
theorem written_nests (h : s.Nests i word j) (hget : s.get? i = some b) {fuel : Nat}
    {qs : List Piece} (written : b.Writes (s.write fuel) qs) :
    ∃ less ps, less ≤ fuel ∧ s.write less j = .ok ps ∧
      Piece.text word :: ps ++ [.text ")"] <:+: qs := by
  obtain ⟨m, path, hlast⟩ := h
  induction path using Relation.ReflTransGen.head_induction_on generalizing b fuel qs with
  | refl =>
      obtain ⟨d, _, hgetd, holds⟩ := hlast
      obtain rfl : b = d := Option.some.inj (hget.symm.trans hgetd)
      obtain ⟨ps, hps, hshown⟩ := Builder.written_infix holds written
      exact ⟨fuel, ps, Nat.le_refl fuel, hps, hshown⟩
  | @head i next hstep _ ih =>
      obtain ⟨w, d, _, hgetd, holds⟩ := hstep
      obtain rfl : b = d := Option.some.inj (hget.symm.trans hgetd)
      obtain ⟨inner, hinner, hshown⟩ := Builder.written_infix holds written
      -- The next query on the path is written with one less, and the rest of the path stands in it.
      cases fuel with
      | zero => cases hinner
      | succ fuel =>
          rw [write] at hinner
          cases hnext : s.get? next with
          | none =>
              rw [hnext] at hinner
              cases hinner
          | some d =>
              rw [hnext] at hinner
              obtain ⟨less, ps, hless, hps, hdeeper⟩ := ih hnext (.inr ⟨{}, hinner⟩)
              have hmid : inner <:+: Piece.text w :: inner ++ [.text ")"] :=
                ⟨[.text w], [.text ")"], rfl⟩
              exact ⟨less, ps, Nat.le_succ_of_le hless, hps, hdeeper.trans (hmid.trans hshown)⟩

theorem send_embedded (s : Shelf) (i : Nat) (t : Terminal) : (s.send i t).1.embedded = s.embedded := by
  rcases s.send_cases i t with ⟨e, hrefused⟩ | ⟨b, plan, hget, _, _, hsent⟩
  · rw [hrefused]
  · rw [hsent]
    exact embedded_set hget rfl rfl

theorem gives_ok {st : Statement.Bound} (h : s.Gives i st) :
    ∃ b ps qs, s.get? i = some b ∧ b.Writes s.embedded ps ∧ st = bind qs ∧ ps <:+: qs := by
  rcases h with ⟨b, hget, hst⟩ | ⟨t, sent, hsent, rfl⟩
  · obtain ⟨ps, hps, rfl⟩ := toSql_ok hst
    exact ⟨b, ps, ps, hget, .inr ⟨{}, hps⟩, rfl, List.infix_rfl⟩
  · obtain ⟨b, plan, ps, hget, hplan, hwritten, hstatement⟩ := send_ok hsent
    obtain ⟨front, back, hwrap⟩ := Builder.wrap_frames hplan
    rw [send_embedded] at hwritten
    exact ⟨b, ps, plan.wrap ps, hget, hwritten.imp id fun h => ⟨plan.shape, h⟩, hstatement,
      front, back, (hwrap ps).symm⟩

/-- Every statement of the outermost builder shows what the innermost writes now. -/
theorem gives_nests (h : s.Nests i word j) {st : Statement.Bound} (given : s.Gives i st) :
    ∃ ps, s.write (s.builders.length + 1) j = .ok ps ∧ Shows st word (bind ps) := by
  obtain ⟨b, ps, qs, hget, hwritten, rfl, hwithin⟩ := gives_ok given
  obtain ⟨less, inner, hless, hinner, hshown⟩ := written_nests h hget hwritten
  have hinner' := (s.write_mono (Nat.le_succ_of_le hless) j).ok hinner
  exact ⟨inner, hinner', inner, qs, rfl, rfl, hshown.trans hwithin⟩

end Shelf

end TableLoom.Query
