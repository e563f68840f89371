import TableLoom.Proofs.Query.Run

/-!
What the calls of a run come to, one by one: a call is taken, sends a statement, or is refused.
-/

namespace TableLoom.Query

inductive Outcome where
  | taken
  | sent (s : Sent)
  | refused (e : Fault)

namespace Outcome

def ofFault : Option Fault → Outcome
  | none => taken
  | some e => refused e

def ofBuilder : Except Fault Builder → Outcome
  | .ok _ => taken
  | .error e => refused e

def ofSent : Except Fault Sent → Outcome
  | .ok s => sent s
  | .error e => refused e

end Outcome

namespace Shelf

/-- What is asked of a builder that is not on the shelf is refused. -/
def asked (s : Shelf) (id : Nat) (answer : Builder → Outcome) : Outcome :=
  match s.get? id with
  | none => .refused .unsupported
  | some b => answer b

def outcome (s : Shelf) : Call → Outcome
  | .make binding table => .ofBuilder (Builder.make binding table)
  | .clause id c => s.asked id fun b => .ofFault (b.add c).2
  | .reset id => s.asked id fun b => .ofBuilder b.reset
  | .release id => s.asked id fun _ => .taken
  | .send id t => .ofSent (s.send id t).2

/-- The outcomes of calls made one after the other. -/
def outcomes (s : Shelf) : List Call → List Outcome
  | [] => []
  | call :: rest => s.outcome call :: (s.step call).outcomes rest

variable {s : Shelf} {id : Nat} {b : Builder}

theorem set_same (hget : s.get? id = some b) : s.set id b = s := by
  obtain ⟨hid, rfl⟩ := List.getElem?_eq_some_iff.mp hget
  exact congrArg Shelf.mk (List.set_getElem_self hid)

theorem get_set (hget : s.get? id = some b) (b' : Builder) : (s.set id b').get? id = some b' :=
  List.getElem?_set_self (List.getElem?_eq_some_iff.mp hget).1

theorem get_set_ne {other : Nat} (h : id ≠ other) (b : Builder) :
    (s.set id b).get? other = s.get? other :=
  List.getElem?_set_ne h

theorem change_ok (hget : s.get? id = some b) {f : Builder → Except Fault Builder} {b' : Builder}
    (hf : f b = .ok b') : s.change id f = s.set id b' := by
  unfold change
  simp only [hget, hf]

theorem change_error (hget : s.get? id = some b) {f : Builder → Except Fault Builder} {e : Fault}
    (hf : f b = .error e) : s.change id f = s := by
  unfold change
  simp only [hget, hf]

theorem step_clause (hget : s.get? id = some b) (c : Clause) :
    s.step (.clause id c) = s.set id (b.add c).1 :=
  change_ok hget (f := fun b => .ok (b.add c).1) rfl

theorem step_release (hget : s.get? id = some b) : s.step (.release id) = s.set id b.release :=
  change_ok hget (f := fun b => .ok b.release) rfl

theorem asked_eq (hget : s.get? id = some b) (f : Builder → Outcome) : s.asked id f = f b := by
  unfold asked
  rw [hget]

end Shelf

end TableLoom.Query
