import TableLoom.Proofs.Query.Lifecycle
import TableLoom.Proofs.Query.Nesting

/-!
Released builders that other builders still hold. A released builder refuses to be written on its own,
but not inside another query: there it reads like a new one, without the conditions that it was given.
-/

namespace TableLoom.Query

/-- The statement of a builder without clauses: all rows, but for deleted ones. -/
def Builder.bare (b : Builder) : Statement.Bound :=
  ⟨b.binding.selectAll ++ match ({ b with clauses := {} } : Builder).guard? with
    | none => ""
    | some guard => " WHERE " ++ guard, []⟩

theorem pieces_bare (write : Nat → Except Fault (List Piece)) {b : Builder} (h : b.clauses = {}) :
    ∃ ps, b.pieces write {} = .ok ps ∧ bind ps = b.bare := by
  have hguard : Builder.guard? { b with clauses := {} } = b.guard? := by
    rw [← h]
  let filter := (Builder.guarded b.guard? []).toList.map (Piece.text "WHERE " :: ·)
  have hsections : b.sections write {} =
      .ok ([[.text b.binding.selectAll]] ++ [] ++ filter ++ [] ++ [] ++ []) := by
    obtain ⟨binding, clauses, stage⟩ := b
    obtain rfl := h
    rfl
  refine ⟨joined [.text " "] ([.text b.binding.selectAll] :: filter), ?_, ?_⟩
  · rw [Builder.pieces, hsections]
    simp [Except.map]
  · unfold Builder.bare
    rw [hguard]
    cases hg : b.guard? with
    | none => simp [filter, hg, Builder.guarded, isBlank, joined, bind, sqlFrom, values]
    | some guard =>
        simp [filter, hg, Builder.guarded, isBlank, joined, bind, sqlFrom, values,
          ← String.append_assoc]

namespace Shelf

/-- A released builder refuses to be written or sent, but a query that holds it at any depth is written
as if it were new: what stands there selects all its rows. -/
theorem released_shows_bare (uses : List Use) (j : Nat) (d : Builder)
    (hget : (after {} uses).get? j = some d) (released : d.stage = .released) :
    (after {} uses).toSql d = .error .renderReleased ∧
    (∀ t db, ∃ e, (after {} uses).act j (.send t db) =
      { shelf := after {} uses, raised := some (.refused e) }) ∧
    (∀ b, (after {} uses).toSql b = ((after {} uses).set j { binding := d.binding }).toSql b) ∧
    (∀ i t, i ≠ j → ((after {} uses).send i t).2 =
      (((after {} uses).set j { binding := d.binding }).send i t).2) ∧
    ∀ i word st, (after {} uses).Nests i word j → (after {} uses).Gives i st → Shows st word d.bare := by
  have hnone : (after {} uses).Emptied :=
    Emptied.after (s := {}) (fun _ h => absurd h List.not_mem_nil) uses
  have hempty := hnone d (List.mem_of_getElem? hget) released
  -- Of the stage nothing is written, and without clauses nothing else differs from a new builder.
  have hembedded : ((after {} uses).set j { binding := d.binding }).embedded = (after {} uses).embedded :=
    embedded_set hget rfl hempty.symm
  refine ⟨?_, terminal_refused hget (.inr released), fun b => ?_, fun i t hne => ?_,
    fun i word st nested given => ?_⟩
  · unfold toSql
    rw [released]
    rfl
  · unfold toSql
    rw [hembedded]
  · cases hi : (after {} uses).get? i with
    | none => rw [send, send, get_set_ne hne.symm, hi]
    | some b => rw [send_eq hi, send_eq ((get_set_ne hne.symm _).trans hi), hembedded]
  · obtain ⟨ps, hps, hshows⟩ := gives_nests nested given
    rw [write, hget] at hps
    obtain ⟨ps', hps', hbare⟩ := pieces_bare ((after {} uses).write _) hempty
    obtain rfl := Except.ok.inj (hps.symm.trans hps')
    rw [← hbare]
    exact hshows

/-- A query is embedded, and the block that it was made for ends. -/
def abandoned : List Use :=
  [.make { label := "Posts", table := "posts", selectAll := "" } .null,
   .make { label := "Comments", table := "comments", selectAll := "" } .null,
   .on 1 (.clause (.condition .and (.text "body") (.text "like") (.text "%spam%"))),
   .on 0 (.clause (.existence false (some 1))), .on 1 .leave]

theorem nests_abandoned : (after {} abandoned).Nests 0 "EXISTS (" 1 :=
  ⟨0, .refl, _, .and, rfl, List.mem_cons_self⟩

theorem released_shows_bare_abandoned :
    ∃ d sent, (after {} abandoned).get? 1 = some d ∧ d.stage = .released ∧
      (after {} abandoned).toSql d = .error .renderReleased ∧
      ((after {} abandoned).send 0 .delete).2 = .ok sent ∧
      Shows sent.statement "EXISTS (" d.bare ∧ d.bare.sql = "SELECT comments.* FROM comments" ∧
      sent.statement.sql = "DELETE FROM posts WHERE EXISTS (SELECT comments.* FROM comments)" := by
  obtain ⟨d, hget, hd⟩ := (Option.any_eq_true (fun d => d.stage = .released ∧
    d.bare.sql = "SELECT comments.* FROM comments") ((after {} abandoned).get? 1)).mp (by decide +kernel)
  obtain ⟨hreleased, hbare⟩ := of_decide_eq_true hd
  have hsql : ((after {} abandoned).send 0 .delete).2.toOption.map (·.statement.sql) =
      some "DELETE FROM posts WHERE EXISTS (SELECT comments.* FROM comments)" := by
    decide +kernel
  cases hsent : ((after {} abandoned).send 0 .delete).2 with
  | error e =>
      rw [hsent] at hsql
      cases hsql
  | ok sent =>
      rw [hsent] at hsql
      obtain ⟨hrefused, _, _, _, hshows⟩ := released_shows_bare abandoned 1 d hget hreleased
      have hgiven : (after {} abandoned).Gives 0 sent.statement := .inr ⟨.delete, sent, hsent, rfl⟩
      exact ⟨d, sent, hget, hreleased, hrefused, rfl, hshows 0 "EXISTS (" _ nests_abandoned hgiven,
        hbare, Option.some.inj hsql⟩

/-- It is not so that no statement is given while a query that stands in it is released. -/
theorem released_query_given :
    ¬ ∀ (uses : List Use) (i j : Nat) (word : String) (d : Builder) (st : Statement.Bound),
      (after {} uses).get? j = some d → d.stage = .released → (after {} uses).Nests i word j →
      ¬ (after {} uses).Gives i st := by
  intro hnever
  obtain ⟨d, hget, hreleased⟩ := (Option.any_eq_true (fun d => d.stage = .released)
    ((after {} abandoned).get? 1)).mp (by decide +kernel)
  have hsome : ((after {} abandoned).send 0 .delete).2.toOption.isSome = true := by
    decide +kernel
  cases hsent : ((after {} abandoned).send 0 .delete).2 with
  | error e =>
      rw [hsent] at hsome
      cases hsome
  | ok sent =>
      exact hnever abandoned 0 1 "EXISTS (" d sent.statement hget (of_decide_eq_true hreleased)
        nests_abandoned (.inr ⟨.delete, sent, hsent, rfl⟩)

end Shelf

end TableLoom.Query
