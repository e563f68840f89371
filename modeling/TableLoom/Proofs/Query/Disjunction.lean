import TableLoom.Proofs.Query.Formula

/-!
The alternatives that a condition offers, and what becomes of them when conditions stand one behind the
other with nothing but a conjunction between them: the last alternative of the one goes together with
the first of the other, and all others stay on their own.
-/

namespace TableLoom.Query

/-- Whether a range still waits for its upper bound behind tokens. -/
def waits (d : Nat) (inRange : Bool) : List Token → Bool
  | [] => inRange
  | t :: rest => waits ((t.nest d).getD 0) (if d = 0 then t.opensRange inRange else inRange) rest

theorem waits_append {d k : Nat} {xs : List Token} (h : balance d xs = some k) (inRange : Bool)
    (ys : List Token) : waits d inRange (xs ++ ys) = waits k (waits d inRange xs) ys := by
  induction xs generalizing d inRange with
  | nil =>
      cases h
      rfl
  | cons t xs ih =>
      obtain ⟨e, hnest, hrest⟩ := Option.bind_eq_some_iff.mp h
      rw [List.cons_append, waits, waits, hnest]
      exact ih hrest _

/-- Where alternatives are cut does not depend on ranges. -/
theorem cut_or_range (d : Nat) (inRange inRange' : Bool) (ts : List Token) :
    cut .or d inRange ts = cut .or d inRange' ts := by
  induction ts generalizing d inRange inRange' with
  | nil => rfl
  | cons t ts ih =>
      have hsep : t.separates .or inRange = t.separates .or inRange' := rfl
      rw [cut, cut, hsep, ih _ (t.opensRange inRange) (t.opensRange inRange'), ih _ inRange inRange']

/-- A connective is looked for in what stands first, and behind that only if there is none. -/
theorem cut_append (link : Link) {d k : Nat} {xs : List Token} (h : balance d xs = some k)
    (inRange : Bool) (ys : List Token) :
    cut link d inRange (xs ++ ys) =
      (cut link d inRange xs).elim
        ((cut link k (waits d inRange xs) ys).map fun p => (xs ++ p.1, p.2))
        fun p => some (p.1, p.2 ++ ys) := by
  induction xs generalizing d inRange with
  | nil =>
      cases h
      simp [cut, waits]
  | cons t xs ih =>
      obtain ⟨e, hnest, hrest⟩ := Option.bind_eq_some_iff.mp h
      have hstep : ∀ r, (cut link e r (xs ++ ys)).map (fun p => (t :: p.1, p.2)) =
          ((cut link e r xs).map (fun p => (t :: p.1, p.2))).elim
            ((cut link k (waits e r xs) ys).map fun p => (t :: xs ++ p.1, p.2))
            fun p => some (p.1, p.2 ++ ys) := by
        intro r
        rw [ih hrest]
        cases cut link e r xs with
        | none => rw [Option.map_none, Option.elim_none, Option.elim_none, Option.map_map]; rfl
        | some p => rfl
      rw [List.cons_append, cut, cut, waits, hnest]
      by_cases hd : d = 0
      · subst hd
        rw [if_pos rfl, if_pos rfl, if_pos rfl]
        split
        · rfl
        · rw [hnest]
          exact hstep _
      · rw [if_neg hd, if_neg hd, if_neg hd]
        exact hstep _

/-- In front of the first connective there is none. -/
theorem cut_front {link : Link} {d : Nat} {inRange : Bool} {ts a b : List Token}
    (h : cut link d inRange ts = some (a, b)) : cut link d inRange a = none := by
  induction ts generalizing d inRange a with
  | nil => cases h
  | cons t ts ih =>
      rw [cut] at h
      split at h
      · next hd =>
          split at h
          · cases h
            rfl
          · next hsep =>
              obtain ⟨⟨a', b'⟩, hcut, heq⟩ := Option.map_eq_some_iff.mp h
              cases heq
              rw [cut, if_pos hd, if_neg hsep, ih hcut, Option.map_none]
      · next hd =>
          obtain ⟨⟨a', b'⟩, hcut, heq⟩ := Option.map_eq_some_iff.mp h
          cases heq
          rw [cut, if_neg hd, ih hcut, Option.map_none]

theorem nest_of_separates {t : Token} {link : Link} {inRange : Bool}
    (h : t.separates link inRange = true) (d : Nat) : t.nest d = some d := by
  cases t with
  | word cs => rfl
  | quoted q cs => rfl
  | mark c => cases link <;> cases h

/-- What stands on both sides of the first connective outside parentheses. -/
theorem cut_sides {link : Link} {d k : Nat} {inRange : Bool} {ts a b : List Token}
    (h : cut link d inRange ts = some (a, b)) (balanced : balance d ts = some k) :
    balance d a = some 0 ∧ balance 0 b = some k ∧
      ∃ t, ts = a ++ t :: b ∧ t.separates link (waits d inRange a) = true := by
  induction ts generalizing d inRange a with
  | nil => cases h
  | cons t ts ih =>
      obtain ⟨e, hnest, hrest⟩ := Option.bind_eq_some_iff.mp balanced
      have hstep : ∀ r, (cut link e r ts).map (fun p => (t :: p.1, p.2)) = some (a, b) →
          r = (if d = 0 then t.opensRange inRange else inRange) →
          balance d a = some 0 ∧ balance 0 b = some k ∧
            ∃ u, t :: ts = a ++ u :: b ∧ u.separates link (waits d inRange a) = true := by
        intro r hmap hr
        obtain ⟨⟨a', b'⟩, hcut, heq⟩ := Option.map_eq_some_iff.mp hmap
        cases heq
        obtain ⟨hopen, hclose, u, hts, hsep⟩ := ih hcut hrest
        refine ⟨?_, hclose, u, congrArg (t :: ·) hts, ?_⟩
        · rw [balance, List.foldlM_cons, hnest]
          exact hopen
        · rw [waits, hnest, ← hr]
          exact hsep
      rw [cut] at h
      by_cases hd : d = 0
      · subst hd
        rw [if_pos rfl] at h
        split at h
        · next hsep =>
            cases h
            rw [nest_of_separates hsep] at hnest
            cases hnest
            exact ⟨rfl, hrest, t, rfl, hsep⟩
        · rw [hnest] at h
          exact hstep _ h rfl
      · rw [if_neg hd, hnest] at h
        exact hstep _ h (if_neg hd).symm

/-- What tokens offer as alternatives: what stands between the connectives outside parentheses. -/
def alternatives (ts : List Token) : List (List Token) :=
  match _ : cut .or 0 false ts with
  | some (a, b) => a :: alternatives b
  | none => [ts]
termination_by ts.length
decreasing_by exact (length_cut ‹_›).2

theorem alternatives_cons {ts a b : List Token} (h : cut .or 0 false ts = some (a, b)) :
    alternatives ts = a :: alternatives b := by
  rw [alternatives]
  split
  · next heq => rw [h] at heq; cases heq; rfl
  · next heq => rw [h] at heq; cases heq

theorem alternatives_single {ts : List Token} (h : cut .or 0 false ts = none) :
    alternatives ts = [ts] := by
  rw [alternatives]
  split
  · next heq => rw [h] at heq; cases heq
  · rfl

/-- Whether each alternative of a condition holds. -/
def branches (v : List Token → Bool) (ts : List Token) : List Bool :=
  (alternatives ts).map fun a => (parse a).holds v

theorem branches_cons (v : List Token → Bool) {ts a b : List Token}
    (h : cut .or 0 false ts = some (a, b)) :
    branches v ts = (parse a).holds v :: branches v b := by
  rw [branches, alternatives_cons h]
  rfl

theorem branches_single (v : List Token → Bool) {ts : List Token} (h : cut .or 0 false ts = none) :
    branches v ts = [(parse ts).holds v] := by
  rw [branches, alternatives_single h]
  rfl

theorem branches_ne_nil (v : List Token → Bool) (ts : List Token) : branches v ts ≠ [] := by
  cases h : cut .or 0 false ts with
  | none => rw [branches_single v h]; exact List.cons_ne_nil _ _
  | some p => rw [branches_cons v h]; exact List.cons_ne_nil _ _

/-- A condition holds when one of its alternatives does. -/
theorem any_branches (v : List Token → Bool) (ts : List Token) :
    (branches v ts).any id = (parse ts).holds v := by
  fun_induction alternatives ts with
  | case1 ts a b h ih =>
      rw [branches_cons v h, List.any_cons, ih, parse_eq ts, h]
      rfl
  | case2 ts h =>
      rw [branches_single v h, List.any_cons, List.any_nil, Bool.or_false]
      rfl

/-- Alternatives of two conditions, of which the last of the one and the first of the other have to hold
together. -/
def meet : List Bool → List Bool → List Bool
  | [p], q :: qs => (p && q) :: qs
  | p :: ps, qs => p :: meet ps qs
  | [], qs => qs

theorem meet_cons {ps : List Bool} (h : ps ≠ []) (p : Bool) (qs : List Bool) :
    meet (p :: ps) qs = p :: meet ps qs := by
  cases ps with
  | nil => exact absurd rfl h
  | cons p' ps => rfl

theorem meet_true {ps : List Bool} (h : ps ≠ []) : meet ps [true] = ps := by
  induction ps with
  | nil => exact absurd rfl h
  | cons p ps ih =>
      cases ps with
      | nil => rw [meet, Bool.and_true]
      | cons p' ps => rw [meet_cons (List.cons_ne_nil p' ps), ih (List.cons_ne_nil p' ps)]

/-- Where both conditions hold, alternatives that go together hold too. -/
theorem any_meet {ps qs : List Bool} (hps : ps.any id = true) (hqs : qs.any id = true) :
    (meet ps qs).any id = true := by
  induction ps with
  | nil => cases hps
  | cons p ps ih =>
      cases ps with
      | nil =>
          cases qs with
          | nil => cases hqs
          | cons q qs =>
              have hp : p = true := by simpa using hps
              rw [meet, hp, Bool.true_and]
              exact hqs
      | cons p' ps =>
          rw [meet_cons (List.cons_ne_nil p' ps), List.any_cons, Bool.or_eq_true]
          rw [List.any_cons, Bool.or_eq_true] at hps
          exact hps.imp id ih

/-- No alternative of the tokens leaves a range without its upper bound. -/
def ClosesRanges (ts : List Token) : Prop :=
  ∀ a ∈ alternatives ts, waits 0 false a = false

theorem closesRanges_single {ts : List Token} (single : cut .or 0 false ts = none)
    (closed : waits 0 false ts = false) : ClosesRanges ts := by
  intro a ha
  rw [alternatives_single single, List.mem_singleton] at ha
  rwa [ha]

theorem closesRanges_cons {ts a b : List Token} (h : cut .or 0 false ts = some (a, b))
    (closed : waits 0 false a = false) (rest : ClosesRanges b) : ClosesRanges ts := by
  intro c hc
  rw [alternatives_cons h, List.mem_cons] at hc
  rcases hc with rfl | hc
  · exact closed
  · exact rest c hc

theorem is_word {t : Token} {name : String} (h : t.is name = true) : ∃ cs, t = .word cs := by
  cases t with
  | word cs => exact ⟨cs, rfl⟩
  | quoted q cs => cases h
  | mark c => cases h

section

variable {t : Token} (conj : t.is "and" = true)

include conj

theorem not_or_of_and : t.is "or" = false := by
  obtain ⟨cs, rfl⟩ := is_word conj
  simp only [Token.is, beq_iff_eq] at conj
  simp [Token.is, conj]

theorem not_opensRange_of_and (inRange : Bool) : t.opensRange inRange = false := by
  obtain ⟨cs, rfl⟩ := is_word conj
  simp only [Token.is, beq_iff_eq] at conj
  simp [Token.opensRange, Token.is, conj]

theorem nest_of_and (d : Nat) : t.nest d = some d := by
  obtain ⟨cs, rfl⟩ := is_word conj
  rfl

/-- No alternative begins at a conjunction. -/
theorem cut_or_and (inRange : Bool) (ys : List Token) :
    cut .or 0 inRange (t :: ys) = (cut .or 0 false ys).map fun p => (t :: p.1, p.2) := by
  have hsep : t.separates .or inRange = false := not_or_of_and conj
  rw [cut, if_pos rfl, hsep, if_neg Bool.false_ne_true, nest_of_and conj, Option.getD_some,
    cut_or_range 0 _ false]

/-- Conditions of which neither offers an alternative both have to hold when a conjunction stands
between them. -/
theorem holds_conjunction (v : List Token → Bool) {xs ys : List Token}
    (balanced : balance 0 xs = some 0) (first : cut .or 0 false xs = none)
    (closed : waits 0 false xs = false) (second : cut .or 0 false ys = none) :
    (parse (xs ++ t :: ys)).holds v = ((parse xs).holds v && (parse ys).holds v) := by
  induction hn : xs.length using Nat.strongRecOn generalizing xs with
  | ind n ih =>
      have hor : cut .or 0 false (xs ++ t :: ys) = none := by
        rw [cut_append .or balanced, first]
        simp [cut_or_and conj, second]
      rw [parse_eq (xs ++ t :: ys), hor, cut_append .and balanced]
      cases hand : cut .and 0 false xs with
      | none =>
          have hcut : cut .and 0 (waits 0 false xs) (t :: ys) = some ([], ys) := by
            rw [closed, cut, if_pos rfl, if_pos]
            simp [Token.separates, conj]
          simp only [hcut, Option.map_some, List.append_nil]
          rfl
      | some p =>
          obtain ⟨a, b⟩ := p
          obtain ⟨hopen, hclose, u, rfl, hsep⟩ := cut_sides hand balanced
          have hu : u.is "and" = true := (Bool.and_eq_true_iff.mp hsep).1
          have hfirst : cut .or 0 false b = none := by
            rw [cut_append .or hopen] at first
            cases hstart : cut .or 0 false a with
            | some p => rw [hstart] at first; cases first
            | none =>
                rw [hstart, Option.elim_none, cut_or_and hu, Option.map_map,
                  Option.map_eq_none_iff] at first
                exact first
          have hclosed : waits 0 false b = false := by
            rwa [waits_append hopen, waits, nest_of_and hu, Option.getD_some, if_pos rfl,
              not_opensRange_of_and hu] at closed
          have hrest := ih b.length (by rw [← hn]; simp; omega) hclose hfirst hclosed rfl
          have hxs : (parse (a ++ u :: b)).holds v = ((parse a).holds v && (parse b).holds v) := by
            rw [parse_eq, first, hand]
            rfl
          rw [hxs, Bool.and_assoc, ← hrest]
          rfl

/-- Of conditions with a conjunction between them, the alternatives that face it go together. -/
theorem branches_conjunction (v : List Token → Bool) {xs : List Token} (balanced : balance 0 xs = some 0)
    (closed : ClosesRanges xs) (ys : List Token) :
    branches v (xs ++ t :: ys) = meet (branches v xs) (branches v ys) := by
  induction hn : xs.length using Nat.strongRecOn generalizing xs with
  | ind n ih =>
      cases hcut : cut .or 0 false xs with
      | some p =>
          obtain ⟨a, b⟩ := p
          have hwhole : cut .or 0 false (xs ++ t :: ys) = some (a, b ++ t :: ys) := by
            rw [cut_append .or balanced, hcut, Option.elim_some]
          have hlength : b.length < n := hn ▸ (length_cut hcut).2
          have hbalanced : balance 0 b = some 0 := (cut_sides hcut balanced).2.1
          have hclosed : ClosesRanges b := fun c hc =>
            closed c (alternatives_cons hcut ▸ List.mem_cons_of_mem a hc)
          rw [branches_cons v hwhole, branches_cons v hcut, meet_cons (branches_ne_nil v b),
            ih b.length hlength hbalanced hclosed rfl]
      | none =>
          have hopen : waits 0 false xs = false :=
            closed xs (alternatives_single hcut ▸ List.mem_singleton_self xs)
          have hwhole : cut .or 0 false (xs ++ t :: ys) =
              (cut .or 0 false ys).map fun p => (xs ++ t :: p.1, p.2) := by
            rw [cut_append .or balanced, hcut, Option.elim_none, cut_or_and conj, Option.map_map]
            rfl
          rw [branches_single v hcut]
          cases hys : cut .or 0 false ys with
          | none =>
              rw [hys, Option.map_none] at hwhole
              rw [branches_single v hwhole, branches_single v hys, meet,
                holds_conjunction conj v balanced hcut hopen hys]
          | some q =>
              obtain ⟨c, d⟩ := q
              rw [hys, Option.map_some] at hwhole
              rw [branches_cons v hwhole, branches_cons v hys, meet,
                holds_conjunction conj v balanced hcut hopen (cut_front hys)]

end

/-- Neither an alternative outside parentheses nor a range without its upper bound. -/
structure Steady (ts : List Token) : Prop where
  single : cut .or 0 false ts = none
  closed : waits 0 false ts = false

theorem Steady.closesRanges {ts : List Token} (h : Steady ts) : ClosesRanges ts := by
  intro a ha
  rw [alternatives_single h.single, List.mem_singleton] at ha
  rw [ha]
  exact h.closed

theorem Steady.append {xs ys : List Token} (balanced : balance 0 xs = some 0) (hx : Steady xs)
    (hy : Steady ys) : Steady (xs ++ ys) where
  single := by
    rw [cut_append .or balanced, hx.single, hx.closed]
    simp [hy.single]
  closed := by
    rw [waits_append balanced, hx.closed]
    exact hy.closed

theorem is_of_inert {t : Token} (h : t.isInert = true) :
    t.is "and" = false ∧ t.is "or" = false ∧ t.is "between" = false ∧ t.nest 0 = some 0 := by
  have hnest : t.nest 0 = some 0 := by
    unfold Token.nest
    split <;> simp_all [Token.isInert]
  simp only [Token.isInert, Bool.and_eq_true, Bool.not_eq_true'] at h
  exact ⟨h.1.1.1.1, h.1.1.1.2, h.1.1.2, hnest⟩

theorem waits_inert {xs : List Token} (h : xs.all Token.isInert = true) (inRange : Bool)
    (ys : List Token) : waits 0 inRange (xs ++ ys) = waits 0 inRange ys := by
  induction xs with
  | nil => rfl
  | cons t xs ih =>
      rw [List.all_cons, Bool.and_eq_true] at h
      obtain ⟨hand, _, hbetween, hnest⟩ := is_of_inert h.1
      rw [List.cons_append, waits, hnest, if_pos rfl, Token.opensRange, hand, hbetween]
      cases inRange <;> exact ih h.2

theorem not_or_of_inert {xs : List Token} (h : xs.all Token.isInert = true) :
    ∀ t ∈ xs, t.is "or" = false :=
  fun t ht => (is_of_inert (List.all_eq_true.mp h t ht)).2.1

theorem steady_inert {xs : List Token} (h : xs.all Token.isInert = true) : Steady xs where
  single := cut_or_none (not_or_of_inert h) 0 false
  closed := by
    have hwaits := waits_inert h false []
    rwa [List.append_nil] at hwaits

theorem steady_enclosed {us : List Token} (h : balance 0 us = some 0) :
    Steady (.mark '(' :: us ++ [.mark ')']) where
  single := cut_enclosed .or h
  closed := by
    -- Nothing inside the parentheses opens a range outside them.
    have hdeep : ∀ {d k : Nat} {us : List Token}, balance d us = some k →
        waits (d + 1) false (us ++ [.mark ')']) = waits (k + 1) false [.mark ')'] := by
      intro d k us hus
      induction us generalizing d with
      | nil => cases hus; rfl
      | cons t us ih =>
          obtain ⟨e, hnest, hrest⟩ := Option.bind_eq_some_iff.mp hus
          rw [List.cons_append, waits, if_neg (Nat.succ_ne_zero d), Token.nest_succ hnest,
            Option.getD_some]
          exact ih hrest
    exact hdeep h

/-- A range with both of its bounds holds together, whatever stands in front of it. -/
theorem steady_range {xs ys zs : List Token} {t u : Token} (hx : xs.all Token.isInert = true)
    (range : t.is "between" = true) (hy : ys.all Token.isInert = true) (conj : u.is "and" = true)
    (hz : zs.all Token.isInert = true) : Steady (xs ++ t :: (ys ++ u :: zs)) where
  single := by
    have ht : t.is "or" = false := by
      obtain ⟨cs, rfl⟩ := is_word range
      simp only [Token.is, beq_iff_eq] at range
      simp [Token.is, range]
    refine cut_or_none ?_ 0 false
    simp only [List.forall_mem_append, List.forall_mem_cons]
    exact ⟨not_or_of_inert hx, ht, not_or_of_inert hy, not_or_of_and conj, not_or_of_inert hz⟩
  closed := by
    have hword : t.nest 0 = some 0 := by
      obtain ⟨cs, rfl⟩ := is_word range
      rfl
    have hopens : t.opensRange false = true := by rw [Token.opensRange, range, Bool.true_or]
    rw [waits_inert hx, waits, hword, if_pos rfl, hopens, Option.getD_some, waits_inert hy, waits,
      nest_of_and conj, if_pos rfl, not_opensRange_of_and conj]
    exact (steady_inert hz).closed

end TableLoom.Query
