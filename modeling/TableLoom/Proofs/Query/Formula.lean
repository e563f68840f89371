import TableLoom.Proofs.Query.Tokens

/-!
What a condition means. Its tokens are read with alternatives weakest, then conjunctions, then
negations; parentheses hold together what they enclose, and the conjunction inside a range belongs to
the range.
-/

namespace TableLoom.Query

inductive Formula where
  | atom (ts : List Token)
  | not (f : Formula)
  | and (f g : Formula)
  | or (f g : Formula)

/-- Whether a formula holds when it is known which atoms do. -/
def Formula.holds (v : List Token → Bool) : Formula → Bool
  | atom ts => v ts
  | not f => !f.holds v
  | and f g => f.holds v && g.holds v
  | or f g => f.holds v || g.holds v

namespace Token

/-- Whether a token connects what stands before it with what stands behind it. -/
def separates (link : Link) (inRange : Bool) (t : Token) : Bool :=
  match link with
  | .and => t.is "and" && !inRange
  | .or => t.is "or"

/-- Whether a range still waits for its upper bound behind a token. -/
def opensRange (inRange : Bool) (t : Token) : Bool :=
  t.is "between" || (inRange && !t.is "and")

/-- Neither a connective nor a parenthesis, and no range. -/
def isInert (t : Token) : Bool :=
  !t.is "and" && !t.is "or" && !t.is "between" && t != .mark '(' && t != .mark ')'

end Token

/-- Cuts tokens at the first connective outside parentheses. -/
def cut (link : Link) (d : Nat) (inRange : Bool) : List Token → Option (List Token × List Token)
  | [] => none
  | t :: rest =>
    if d = 0 then
      if t.separates link inRange then some ([], rest)
      else (cut link ((t.nest 0).getD 0) (t.opensRange inRange) rest).map fun (a, b) => (t :: a, b)
    else (cut link ((t.nest d).getD 0) inRange rest).map fun (a, b) => (t :: a, b)

/-- What is negated, if tokens begin with a negation. -/
def negated? : List Token → Option (List Token)
  | t :: rest => if t.is "not" then some rest else none
  | [] => none

theorem negated_append {xs ys : List Token} (hx : negated? xs = none) (hy : negated? ys = none) :
    negated? (xs ++ ys) = none := by
  cases xs with
  | nil => exact hy
  | cons x xs =>
      have hfirst : x.is "not" = false := by simpa [negated?] using hx
      simp [negated?, hfirst]

/-- Tokens that make up a single condition. -/
structure IsAtom (ts : List Token) : Prop where
  inert : ts.all Token.isInert = true
  positive : negated? ts = none

theorem IsAtom.append {xs ys : List Token} (hx : IsAtom xs) (hy : IsAtom ys) :
    IsAtom (xs ++ ys) where
  inert := by rw [List.all_append, hx.inert, hy.inert, Bool.and_self]
  positive := negated_append hx.positive hy.positive

/-- What stands in parentheses, if one pair encloses all of the tokens. -/
def enclosed? : List Token → Option (List Token)
  | .mark '(' :: rest =>
    if rest.getLast? = some (.mark ')') ∧ balance 0 rest.dropLast = some 0 then some rest.dropLast
    else none
  | _ => none

theorem cut_eq {link : Link} {d : Nat} {inRange : Bool} {ts a b : List Token}
    (h : cut link d inRange ts = some (a, b)) : ∃ t, ts = a ++ t :: b := by
  induction ts generalizing d inRange a with
  | nil => cases h
  | cons t ts ih =>
      have hrest : ∀ e r, (cut link e r ts).map (fun (a, b) => (t :: a, b)) = some (a, b) →
          ∃ u, t :: ts = a ++ u :: b := by
        intro e r hmap
        obtain ⟨⟨a', b'⟩, hcut, heq⟩ := Option.map_eq_some_iff.mp hmap
        cases heq
        obtain ⟨u, hu⟩ := ih hcut
        exact ⟨u, congrArg (t :: ·) hu⟩
      rw [cut] at h
      split at h
      · split at h
        · cases h
          exact ⟨t, rfl⟩
        · exact hrest _ _ h
      · exact hrest _ _ h

theorem length_cut {link : Link} {ts a b : List Token} (h : cut link 0 false ts = some (a, b)) :
    a.length < ts.length ∧ b.length < ts.length := by
  obtain ⟨t, rfl⟩ := cut_eq h
  simp only [List.length_append, List.length_cons]
  omega

theorem length_negated {ts us : List Token} (h : negated? ts = some us) : us.length < ts.length := by
  unfold negated? at h
  split at h
  · obtain ⟨_, heq⟩ := Option.ite_none_right_eq_some.mp h
    rw [← Option.some.inj heq]
    exact Nat.lt_succ_self _
  · cases h

theorem length_enclosed {ts us : List Token} (h : enclosed? ts = some us) :
    us.length < ts.length := by
  unfold enclosed? at h
  split at h
  · next rest =>
      obtain ⟨_, heq⟩ := Option.ite_none_right_eq_some.mp h
      rw [← Option.some.inj heq, List.length_dropLast, List.length_cons]
      omega
  · cases h

/-- The formula that tokens write. -/
def parse (ts : List Token) : Formula :=
  match _ : cut .or 0 false ts with
  | some (a, b) => .or (parse a) (parse b)
  | none =>
    match _ : cut .and 0 false ts with
    | some (a, b) => .and (parse a) (parse b)
    | none =>
      match _ : negated? ts with
      | some us => .not (parse us)
      | none =>
        match _ : enclosed? ts with
        | some us => parse us
        | none => .atom ts
termination_by ts.length
decreasing_by
  · exact (length_cut ‹_›).1
  · exact (length_cut ‹_›).2
  · exact (length_cut ‹_›).1
  · exact (length_cut ‹_›).2
  · exact length_negated ‹_›
  · exact length_enclosed ‹_›

theorem parse_eq (ts : List Token) :
    parse ts =
      match cut .or 0 false ts with
      | some (a, b) => .or (parse a) (parse b)
      | none =>
        match cut .and 0 false ts with
        | some (a, b) => .and (parse a) (parse b)
        | none =>
          match negated? ts with
          | some us => .not (parse us)
          | none =>
            match enclosed? ts with
            | some us => parse us
            | none => .atom ts := by
  conv => lhs; rw [parse]
  split
  · next hor => rw [hor]
  · next hor =>
      rw [hor]
      split
      · next hand => rw [hand]
      · next hand =>
          rw [hand]
          split
          · next hnot => rw [hnot]
          · next hnot =>
              rw [hnot]
              split
              · next hin => rw [hin]
              · next hin => rw [hin]

example : parse [.word ['a'], .word ['O', 'R'], .mark '(', .word ['b'], .mark ')'] =
    .or (.atom [.word ['a']]) (.atom [.word ['b']]) := by
  cbv

theorem cut_inert {xs : List Token} (h : xs.all Token.isInert = true) (link : Link)
    (ys : List Token) :
    cut link 0 false (xs ++ ys) = (cut link 0 false ys).map fun (a, b) => (xs ++ a, b) := by
  induction xs with
  | nil => simp
  | cons t xs ih =>
      rw [List.all_cons, Bool.and_eq_true] at h
      have hsep : t.separates link false = false := by
        cases link <;> simp_all [Token.separates, Token.isInert]
      have hnest : t.nest 0 = some 0 := by
        unfold Token.nest
        split <;> simp_all [Token.isInert]
      have hrange : t.opensRange false = false := by
        simp_all [Token.opensRange, Token.isInert]
      rw [List.cons_append, cut, if_pos rfl, hsep, hnest, hrange, if_neg Bool.false_ne_true,
        Option.getD_some, ih h.2, Option.map_map]
      rfl

/-- Inside parentheses nothing is cut as long as they stay open. -/
theorem cut_within (link : Link) (inRange : Bool) {us : List Token} {d k : Nat}
    (h : balance d us = some k) (ys : List Token) :
    cut link (d + 1) inRange (us ++ ys) =
      (cut link (k + 1) inRange ys).map fun (a, b) => (us ++ a, b) := by
  induction us generalizing d with
  | nil =>
      cases h
      simp
  | cons t us ih =>
      -- One level more than `balance` counts, so that no token is outside parentheses.
      obtain ⟨e, hnest, hrest⟩ := Option.bind_eq_some_iff.mp h
      rw [List.cons_append, cut, if_neg (Nat.succ_ne_zero d), Token.nest_succ hnest,
        Option.getD_some, ih hrest, Option.map_map]
      rfl

theorem cut_enclosed (link : Link) {us : List Token} (h : balance 0 us = some 0) :
    cut link 0 false (.mark '(' :: us ++ [.mark ')']) = none := by
  have hwithin := cut_within link false h [.mark ')']
  have hclose : cut link 1 false [.mark ')'] = none := by
    cases link <;> rfl
  rw [hclose, Option.map_none] at hwithin
  have hopen : (Token.mark '(').separates link false = false := by
    cases link <;> rfl
  rw [List.cons_append, cut, if_pos rfl, hopen, if_neg Bool.false_ne_true]
  change (cut link 1 false (us ++ [.mark ')'])).map _ = none
  rw [hwithin, Option.map_none]

theorem cut_or_none {ts : List Token} (h : ∀ t ∈ ts, t.is "or" = false) (d : Nat) (inRange : Bool) :
    cut .or d inRange ts = none := by
  induction ts generalizing d inRange with
  | nil => rfl
  | cons t ts ih =>
      have hrest := ih fun u hu => h u (List.mem_cons_of_mem t hu)
      have hsep : t.separates .or inRange = false := h t List.mem_cons_self
      simp [cut, hsep, hrest]

theorem parse_atom {ts : List Token} (h : IsAtom ts) : parse ts = .atom ts := by
  have hcut : ∀ link, cut link 0 false ts = none := by
    intro link
    have hpast := cut_inert h.inert link []
    rwa [List.append_nil] at hpast
  have hin : enclosed? ts = none := by
    have hinert := h.inert
    unfold enclosed?
    split
    · simp [Token.isInert] at hinert
    · rfl
  rw [parse_eq, hcut, hcut, h.positive, hin]

/-- Parentheses change nothing about what stands alone in them. -/
theorem parse_enclosed {us : List Token} (h : balance 0 us = some 0) :
    parse (.mark '(' :: us ++ [.mark ')']) = parse us := by
  have hin : enclosed? (.mark '(' :: us ++ [.mark ')']) = some us := by
    simp [enclosed?, h]
  rw [parse_eq, cut_enclosed .or h, cut_enclosed .and h, hin]
  rfl

/-- A condition in front of others that offer no alternative is one more that has to hold. -/
theorem parse_conjunction {xs ys : List Token} {t : Token} (atom : IsAtom xs)
    (conj : t.is "and" = true) (single : cut .or 0 false ys = none) :
    parse (xs ++ t :: ys) = .and (.atom xs) (parse ys) := by
  have hword : ∃ cs, t = .word cs := by
    cases t with
    | word cs => exact ⟨cs, rfl⟩
    | quoted q cs => cases conj
    | mark c => cases conj
  obtain ⟨cs, rfl⟩ := hword
  have hor : (Token.word cs).is "or" = false := by
    simp only [Token.is, beq_iff_eq] at conj
    simp [Token.is, conj]
  have hbetween : (Token.word cs).is "between" = false := by
    simp only [Token.is, beq_iff_eq] at conj
    simp [Token.is, conj]
  have hfirst : cut .or 0 false (.word cs :: ys) = none := by
    simp [cut, Token.separates, hor, Token.nest, Token.opensRange, hbetween, single]
  have hsecond : cut .and 0 false (.word cs :: ys) = some ([], ys) := by
    simp [cut, Token.separates, conj]
  rw [parse_eq, cut_inert atom.inert, hfirst, cut_inert atom.inert, hsecond]
  simp [parse_atom atom]

end TableLoom.Query
