import TableLoom.Proofs.Query.Statements

/-!
Where the conditions stand in a statement: behind what comes before them and in front of the rest, in
whichever way the statement is sent.
-/

namespace TableLoom.Query

/-- The section of a statement in which its filter stands. -/
def whereClause : Option (List Piece) → List Piece
  | none => []
  | some ps => .text "WHERE " :: ps

theorem bind_eq_of_marks {ps qs : List Piece} (h : marks ps = marks qs) : bind ps = bind qs := by
  have hsql : sqlFrom 1 ps = sqlFrom 1 qs := by
    rw [← String.toList_inj, toList_sqlFrom, toList_sqlFrom, h]
  rw [bind, bind, hsql, values_eq, values_eq, h]

namespace Builder

theorem joined_frames {α : Type} (sep : List α) (xs : List (List α)) (w : List α)
    (ys : List (List α)) : ∃ front back, joined sep (xs ++ w :: ys) = front ++ w ++ back := by
  induction xs with
  | nil =>
      cases ys with
      | nil => exact ⟨[], [], by simp [joined]⟩
      | cons y ys => exact ⟨[], sep ++ joined sep (y :: ys), by simp [joined]⟩
  | cons x xs ih =>
      obtain ⟨front, back, heq⟩ := ih
      refine ⟨x ++ sep ++ front, back, ?_⟩
      have hcons : joined sep (x :: (xs ++ w :: ys)) = x ++ sep ++ joined sep (xs ++ w :: ys) := by
        cases xs <;> rfl
      rw [List.cons_append, hcons, heq]
      simp only [List.append_assoc]

theorem pieces_where {b : Builder} {write : Nat → Except Fault (List Piece)} {shape : Shape}
    {ps : List Piece} (h : b.pieces write shape = .ok ps) :
    ∃ filter front back, b.conditions write = .ok filter ∧
      ps = front ++ whereClause filter ++ back := by
  obtain ⟨parts, hparts, rfl⟩ := map_ok h
  obtain ⟨start, _, h₁⟩ := bind_ok hparts
  obtain ⟨laterals, _, h₂⟩ := bind_ok h₁
  obtain ⟨filter, hfilter, h₃⟩ := bind_ok h₂
  obtain ⟨groups, _, h₄⟩ := bind_ok h₃
  obtain ⟨order, _, heq⟩ := bind_ok h₄
  obtain rfl := Except.ok.inj heq
  cases filter with
  | none => exact ⟨none, _, [], hfilter, by rw [whereClause, List.append_nil, List.append_nil]⟩
  | some rs =>
      obtain ⟨front, back, hframes⟩ := joined_frames [Piece.text " "]
        (start :: b.clauses.joins.map (fun j => [.text j]) ++ laterals) (.text "WHERE " :: rs)
        (groups ++ order ++ b.paging shape)
      refine ⟨some rs, front, back, hfilter, ?_⟩
      rw [whereClause, ← hframes]
      simp

theorem deletion_where {b : Builder} {write : Nat → Except Fault (List Piece)} {ps : List Piece}
    (h : b.deletion write = .ok ps) :
    ∃ filter front, b.conditions write = .ok filter ∧
      marks ps = marks (front ++ whereClause filter) := by
  obtain ⟨filter, hfilter, heq⟩ := bind_ok h
  obtain rfl := Except.ok.inj heq
  cases filter with
  | none => exact ⟨none, _, hfilter, (congrArg marks (List.append_nil _)).symm⟩
  | some rs =>
      refine ⟨some rs, [.text s!"DELETE FROM {b.binding.table}", .text " "], hfilter, ?_⟩
      simp [whereClause]

theorem wrap_frames {b : Builder} {t : Terminal} {wanted : Plan} (h : b.plan t = .ok wanted) :
    ∃ front back, ∀ ps, wanted.wrap ps = front ++ ps ++ back := by
  rcases wrap_cases h with hplain | ⟨front, back, hwrap⟩
  · exact ⟨[], [], fun ps => by rw [hplain, List.append_nil]; rfl⟩
  · exact ⟨[.text front], [.text back], fun ps => by rw [hwrap]; rfl⟩

end Builder

end TableLoom.Query
