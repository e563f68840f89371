import TableLoom.Proofs.Query.Conditions
import TableLoom.Proofs.Query.Outcome

/-!
Conditions with nothing but conjunctions between them. Each is written as it was given, so alternatives
of raw text meet the conditions beside it: of two neighbours, the last alternative of the one goes
together with the first of the other. Where no raw text offers an alternative outside parentheses, all
of the conditions have to hold.
-/

namespace TableLoom.Query

/-- Whether each alternative holds of conditions that stand one behind the other with a conjunction
between neighbours, when their placeholders are numbered from `n` on. -/
def reading (v : List Token → Bool) (n : Nat) : List (List Piece) → List Bool
  | [] => [true]
  | ps :: rest =>
    meet (branches v (tokens (sqlFrom n ps).toList)) (reading v (n + (values ps).length) rest)

/-- Whether each of the conditions holds on its own. -/
def eachHolds (v : List Token → Bool) (n : Nat) : List (List Piece) → Bool
  | [] => true
  | ps :: rest =>
    (parse (tokens (sqlFrom n ps).toList)).holds v && eachHolds v (n + (values ps).length) rest

/-- Rows that fit each condition are never left out. -/
theorem any_reading_of_each {v : List Token → Bool} {n : Nat} {pss : List (List Piece)}
    (h : eachHolds v n pss = true) : (reading v n pss).any id = true := by
  induction pss generalizing n with
  | nil => rfl
  | cons ps rest ih =>
      rw [eachHolds, Bool.and_eq_true, ← any_branches] at h
      exact any_meet h.1 (ih h.2)

/-- A condition that offers no alternative, from whichever number on its placeholders are numbered. -/
def Alone (ms : List Mark) : Prop :=
  ∀ n, cut .or 0 false (tokens (numbered n ms)) = none

/-- Where no condition offers an alternative, each has to hold. -/
theorem any_reading_of_alone {pss : List (List Piece)} (alone : ∀ ps ∈ pss, Alone (marks ps))
    (v : List Token → Bool) (n : Nat) : (reading v n pss).any id = eachHolds v n pss := by
  have hsingle : ∀ n, ∃ b, reading v n pss = [b] ∧ b = eachHolds v n pss := by
    induction pss with
    | nil => exact fun _ => ⟨true, rfl, rfl⟩
    | cons ps rest ih =>
        intro n
        obtain ⟨b, hrest, hb⟩ := ih (fun qs hqs => alone qs (List.mem_cons_of_mem ps hqs))
          (n + (values ps).length)
        have hcut := alone ps List.mem_cons_self n
        rw [← toList_sqlFrom] at hcut
        rw [reading, branches_single v hcut, hrest, meet, eachHolds, ← hb]
        exact ⟨_, rfl, rfl⟩
  obtain ⟨b, hreading, hb⟩ := hsingle n
  rw [hreading, ← hb]
  exact Bool.or_false b

/-- Conditions with a conjunction between neighbours; none are written as nothing. -/
def conjunction : List (List Piece) → Option (List Piece)
  | [] => none
  | ps :: rest => some (joined [.text " AND "] (ps :: rest))

theorem branches_conjunctions {v : List Token → Bool} {ps : List Piece} {rest : List (List Piece)}
    (stand : ∀ qs ∈ ps :: rest, IsCondition ClosesRanges (marks qs)) (n : Nat) :
    branches v (tokens (sqlFrom n (joined [.text " AND "] (ps :: rest))).toList) =
      reading v n (ps :: rest) := by
  induction rest generalizing ps n with
  | nil => rw [reading, reading, meet_true (branches_ne_nil v _)]; rfl
  | cons qs rest ih =>
      have hfirst := stand ps List.mem_cons_self
      have hrest := ih (fun rs hrs => stand rs (List.mem_cons_of_mem ps hrs))
        (n + (values ps).length)
      have htext : (sqlFrom n (joined [.text " AND "] (ps :: qs :: rest))).toList =
          (sqlFrom n ps).toList ++ " AND ".toList ++
            (sqlFrom (n + (values ps).length) (joined [.text " AND "] (qs :: rest))).toList := by
        simp [joined, toList_sqlFrom, numbered_append, values_eq, numbered]
      have hbalanced : BalancedText (sqlFrom n ps).toList := by
        rw [toList_sqlFrom]
        exact hfirst.balanced n
      have hclosed : ClosesRanges (tokens (sqlFrom n ps).toList) := by
        rw [toList_sqlFrom]
        exact hfirst.sound n
      rw [htext, tokens_conjoined hbalanced.ends_open,
        branches_conjunction rfl v (hbalanced.balance_tokens 0) hclosed, hrest]
      rfl

/-- Conditions with conjunctions between them ask for what their alternatives do when those that face
a conjunction go together. -/
theorem filterHolds_conjunction {pss : List (List Piece)}
    (stand : ∀ ps ∈ pss, IsCondition ClosesRanges (marks ps)) (v : List Token → Bool) (n : Nat) :
    filterHolds v n (conjunction pss) = (reading v n pss).any id := by
  cases pss with
  | nil => rfl
  | cons ps rest => rw [conjunction, filterHolds_some, ← any_branches, branches_conjunctions stand]

theorem marks_of_isBlank {ps : List Piece} (h : isBlank ps = true) : marks ps = [] := by
  induction ps with
  | nil => rfl
  | cons p ps ih =>
      cases p with
      | text s =>
          rw [isBlank, Bool.and_eq_true, String.isEmpty_iff] at h
          rw [h.1, marks_text, ih h.2]
          rfl
      | slot v => cases h

theorem isBlank_joined {ps : List Piece} (h : marks ps ≠ []) (rest : List (List Piece)) :
    isBlank (joined [.text " AND "] (ps :: rest)) = false := by
  refine Bool.eq_false_iff.mpr fun hblank => h ?_
  have hnone := marks_of_isBlank hblank
  cases rest with
  | nil => exact hnone
  | cons qs rest =>
      rw [joined, marks_append, marks_append] at hnone
      · exact (List.append_eq_nil_iff.mp (List.append_eq_nil_iff.mp hnone).1).1
      · exact List.cons_ne_nil _ _

namespace Builder

theorem connect_conjunctions {x : Link × List Piece} {rest : List (Link × List Piece)}
    (h : ∀ y ∈ rest, y.1 = .and) :
    connect (x :: rest) = joined [.text " AND "] ((x :: rest).map (·.2)) := by
  induction rest generalizing x with
  | nil => exact List.append_nil x.2
  | cons y rest ih =>
      obtain ⟨hy, hrest⟩ := List.forall_mem_cons.mp h
      have hnext := ih (x := y) hrest
      obtain ⟨link, qs⟩ := y
      obtain rfl : link = .and := hy
      rw [List.map_cons, List.map_cons, joined, ← List.map_cons, ← hnext]
      · rw [connect, connect, List.flatMap_cons, List.append_assoc]
        rfl
      · exact List.cons_ne_nil _ _

theorem guarded_conjunctions {user : List (Link × List Piece)} (links : ∀ x ∈ user, x.1 = .and)
    (written : ∀ x ∈ user, marks x.2 ≠ []) :
    guarded none (connect user) = conjunction (user.map (·.2)) := by
  cases user with
  | nil => rfl
  | cons x rest =>
      have hrest := (List.forall_mem_cons.mp links).2
      rw [connect_conjunctions hrest, guarded, List.map_cons,
        isBlank_joined (written x List.mem_cons_self)]
      rfl

/-- With conjunctions alone, the conditions ask for what soft deletion admits, and for what they read
as one behind the other. -/
theorem conditions_conjoined {b : Builder} (hb : b.binding.Fits Texture.balanced)
    (hc : b.clauses.Fits Texture.balanced) {write : Nat → Except Fault (List Piece)}
    (hw : Texture.balanced.Writes write) (column : b.binding.softDelete = true → b.NamesColumn)
    (links : ∀ c ∈ b.clauses.conditions, c.link = .and)
    (stand : ∀ c ∈ b.clauses.conditions, WritesCondition ClosesRanges c.phrase)
    {filter : Option (List Piece)} (h : b.conditions write = .ok filter) :
    ∃ parts, (b.clauses.conditions.mapM fun c => expand write c.phrase) = .ok parts ∧
      ∀ v n, filterHolds v n filter = (b.admits v && (reading v n parts).any id) := by
  obtain ⟨bare, hbare, hholds⟩ := conditions_guarded hb hc hw column h
  obtain ⟨user, huser, heq⟩ := bind_ok hbare
  have hpaired : ∀ x ∈ user, x.1 = .and ∧ IsCondition ClosesRanges (marks x.2) := by
    intro x hx
    obtain ⟨c, hmem, hx⟩ := exists_left_of_mapM huser hx
    obtain ⟨ps, hps, heq⟩ := bind_ok hx
    cases heq
    exact ⟨links c hmem, stand c hmem write hw ps hps⟩
  have hbare : bare = conjunction (user.map (·.2)) := by
    have hguard : b.unguarded.guard? = none := rfl
    rw [hguard] at heq
    rw [← Except.ok.inj heq]
    exact guarded_conjunctions (fun x hx => (hpaired x hx).1) fun x hx => (hpaired x hx).2.written
  have hparts : (b.clauses.conditions.mapM fun c => expand write c.phrase) =
      .ok (user.map (·.2)) := mapM_of_labelled huser
  refine ⟨user.map (·.2), hparts, fun v n => ?_⟩
  rw [hholds, hbare, filterHolds_conjunction]
  intro ps hps
  obtain ⟨x, hx, rfl⟩ := List.mem_map.mp hps
  exact (hpaired x hx).2

/-- The section in which groups are told apart. -/
def havingClause : Option (List Piece) → List Piece
  | none => []
  | some ps => .text "HAVING " :: ps

theorem pieces_having {b : Builder} {write : Nat → Except Fault (List Piece)} {shape : Shape}
    (shown : shape.grouping = true) {ps : List Piece} (h : b.pieces write shape = .ok ps) :
    ∃ parts front back, b.clauses.havings.mapM (expand write) = .ok parts ∧
      ps = front ++ havingClause (conjunction parts) ++ back := by
  obtain ⟨sections, hsections, rfl⟩ := map_ok h
  obtain ⟨start, _, h₁⟩ := bind_ok hsections
  obtain ⟨laterals, _, h₂⟩ := bind_ok h₁
  obtain ⟨filter, _, h₃⟩ := bind_ok h₂
  obtain ⟨groups, hgroups, h₄⟩ := bind_ok h₃
  obtain ⟨order, _, heq⟩ := bind_ok h₄
  obtain rfl := Except.ok.inj heq
  unfold grouping at hgroups
  rw [shown] at hgroups
  simp only [Bool.not_true, Bool.false_eq_true, ↓reduceIte] at hgroups
  obtain ⟨named, _, h₅⟩ := bind_ok hgroups
  cases hhavings : b.clauses.havings with
  | nil =>
      exact ⟨[], _, [], rfl, by rw [conjunction, havingClause, List.append_nil, List.append_nil]⟩
  | cons p rest =>
      rw [hhavings] at h₅
      obtain ⟨parts, hparts, heq⟩ := bind_ok h₅
      obtain rfl := Except.ok.inj heq
      obtain ⟨first, others, -, -, rfl⟩ := List.forall₂_cons_left_iff.mp (mapM_eq_ok.mp hparts)
      obtain ⟨front, back, hframes⟩ := joined_frames [Piece.text " "]
        (start :: b.clauses.joins.map (fun j => [.text j]) ++ laterals
          ++ filter.toList.map (Piece.text "WHERE " :: ·) ++ named)
        (havingClause (conjunction (first :: others))) (order ++ b.paging shape)
      refine ⟨first :: others, front, back, hparts, ?_⟩
      rw [← hframes]
      simp [havingClause, conjunction]

end Builder

namespace Clause

/-- How a clause connects its condition with those before it. -/
def link? : Clause → Option Link
  | .condition link .. | .rawCondition link .. => some link
  | _ => none

/-- The column that a clause compares. -/
def column? : Clause → Option String
  | .condition _ (.text column) .. | .subquery (.text column) .. => some column
  | _ => none

/-- The condition that a clause supplies as raw text. -/
def fragment? : Clause → Option Marked
  | .rawCondition _ (.text s) params | .having (.text s) params => some ⟨s, params⟩
  | _ => none

/-- A clause that connects by a conjunction, and whose raw text is a condition. -/
structure Conjoins (c : Clause) : Prop where
  link : ∀ link ∈ c.link?, link = .and
  column : ∀ column ∈ c.column?, (tokens column.toList).all Token.isInert = true
  written : ∀ m ∈ c.fragment?, m.text ≠ ""
  closed : ∀ m ∈ c.fragment?, ∀ n, ClosesRanges (tokens (numbered n m.marks))

end Clause

/-- What a clause brings stands among conditions and is connected with them by a conjunction. -/
def Item.Conjoins (asked : List Token → Prop) : Item → Prop
  | .condition c => c.link = .and ∧ WritesCondition asked c.phrase
  | .having p => WritesCondition asked p
  | _ => True

theorem fill_ne_nil {cs : List Char} (h : cs ≠ []) (vs : List Value) : fill cs vs ≠ [] := by
  cases cs with
  | nil => exact absurd rfl h
  | cons c cs =>
      cases vs with
      | nil => exact List.cons_ne_nil _ _
      | cons v vs =>
          rw [fill]
          split <;> exact List.cons_ne_nil _ _

theorem writes_raw {asked : List Token → Prop} {sql : Value} {params : List Value} {p : Phrase}
    (h : readRaw sql params = .ok p)
    (sound : ∀ s, sql = .text s → BalancedText s.toList ∧ s ≠ "" ∧
      ∀ n, asked (tokens (numbered n (⟨s, params⟩ : Marked).marks))) : WritesCondition asked p := by
  rcases readRaw_ok h with ⟨rfl, _⟩ | ⟨s, hs, reads⟩
  · exact writes_unwritable asked
  · obtain ⟨hbalanced, hwritten, hasked⟩ := sound s hs
    refine writes_flat reads.flat ?_
    rw [reads.same]
    refine ⟨fill_ne_nil ?_ params, balanced_fill hbalanced params, hasked⟩
    rwa [ne_eq, String.toList_eq_nil_iff]

theorem steady_column {b : Binding} {column : Value} {name : String}
    (h : readColumn b column = .ok name) (inert : (tokens name.toList).all Token.isInert = true) :
    SteadyText name.toList :=
  .of_inert (balanced_of_plain (plain_of_glue (glue_of_isColumnReference (readColumn_ok h).2))) inert

theorem conjoins_brought {asked : List Token → Prop} (weaker : ∀ ts, Steady ts → asked ts)
    {c : Clause} (h : c.Conjoins) (texts : ∀ m ∈ c.rawMarked, BalancedText m.text.toList)
    (sound : ∀ m ∈ c.fragment?, ∀ n, asked (tokens (numbered n m.marks))) {b : Binding} {x : Item}
    (brings : c.Brings b x) : x.Conjoins asked := by
  cases brings with
  | @condition link column operator v p hp =>
      refine ⟨h.link link rfl, ?_⟩
      obtain ⟨op, _, hrest⟩ := bind_ok hp
      obtain ⟨name, hname, hcomparison⟩ := bind_ok hrest
      obtain ⟨rfl, _⟩ := readColumn_ok hname
      exact writes_comparison weaker (steady_column hname (h.column name rfl)) hcomparison
  | @rawCondition link sql params p hp =>
      refine ⟨h.link link rfl, writes_raw hp ?_⟩
      rintro s rfl
      exact ⟨texts _ List.mem_cons_self, h.written _ rfl, sound _ rfl⟩
  | @presence query =>
      have hword : SteadyText "EXISTS".toList :=
        .of_inert (balanced_of_free (by decide)) (by decide)
      exact ⟨rfl, writes_embedded weaker hword query⟩
  | @absence query =>
      have hword : SteadyText "NOT EXISTS".toList :=
        .of_inert (balanced_of_free (by decide)) (by decide)
      exact ⟨rfl, writes_embedded weaker hword query⟩
  | @subquery column operator query op name hname hop =>
      obtain ⟨rfl, _⟩ := readColumn_ok hname
      have hword : SteadyText op.sql.toList := by
        refine .operator ?_ ?_
        all_goals
          rintro rfl
          cases hop
      have hhead := (steady_column hname (h.column name rfl)).spaced hword
      have htext : (s!"{name} {op.sql}").toList = name.toList ++ ' ' :: op.sql.toList := by
        change (name ++ " " ++ op.sql).toList = _
        simp
      exact ⟨rfl, writes_embedded weaker (htext ▸ hhead) query⟩
  | @having sql params p hp =>
      refine writes_raw hp ?_
      rintro s rfl
      exact ⟨texts _ List.mem_cons_self, h.written _ rfl, sound _ rfl⟩
  | @havingAggregate aggregate column operator v agg op target _ _ htarget hop =>
      have hplain := plain_of_glue (glue_target (readTarget_ok htarget).2)
      exact writes_aggregate weaker agg hop hplain v
  | _ => trivial

namespace Shelf

/-- A property of what a builder holds, if there is one of this number. -/
def Own (s : Shelf) (id : Nat) (P : Clauses → Prop) : Prop :=
  ∀ b, s.get? id = some b → P b.clauses

variable {s : Shelf} {id : Nat} {P : Clauses → Prop}

theorem Own.set (h : s.Own id P) {other : Nat} {b : Builder} (hb : other = id → P b.clauses) :
    (s.set other b).Own id P := by
  intro b' hget
  by_cases hid : other = id
  · subst hid
    cases hold : s.get? other with
    | none =>
        have hlength : s.builders.length ≤ other := List.getElem?_eq_none_iff.mp hold
        rw [Shelf.get?, Shelf.set, List.set_eq_of_length_le hlength] at hget
        exact h b' hget
    | some d =>
        rw [get_set hold b] at hget
        obtain rfl := Option.some.inj hget
        exact hb rfl
  · exact h b' ((get_set_ne hid b).symm.trans hget)

theorem Own.change (h : s.Own id P) (other : Nat) {f : Builder → Except Fault Builder}
    (keeps : other = id → ∀ b b', P b.clauses → f b = .ok b' → P b'.clauses) :
    (s.change other f).Own id P := by
  unfold Shelf.change
  cases hget : s.get? other with
  | none => exact h
  | some b =>
      cases hf : f b with
      | error e => simpa [hf] using h
      | ok b' =>
          have hkept : other = id → P b'.clauses := by
            rintro rfl
            exact keeps rfl b b' (h b hget) hf
          simpa [hf] using h.set hkept

/-- What no clauses have, and every clause of a builder keeps, its clauses have after a call. -/
theorem Own.step (h : s.Own id P) (emptied : P {}) {call : Call}
    (added : ∀ c, call = .clause id c → ∀ b clauses, P clauses → P (clauses.add b c).1) :
    (s.step call).Own id P := by
  cases call with
  | make binding table =>
      unfold Shelf.step
      cases hmake : Builder.make binding table with
      | error e => simpa [hmake] using h
      | ok made =>
          intro b hget
          simp only [hmake] at hget
          change (s.builders ++ [made])[id]? = some b at hget
          rw [List.getElem?_append] at hget
          split at hget
          · exact h b hget
          · rw [List.mem_singleton.mp (List.mem_of_getElem? hget), Builder.clauses_of_make hmake]
            exact emptied
  | clause other c =>
      refine h.change other fun hid b b' hb heq => ?_
      subst hid
      obtain rfl := Except.ok.inj heq
      rcases b.add_cases c with hsame | ⟨_, hclauses⟩
      · rw [hsame]
        exact hb
      · rw [hclauses]
        exact added c rfl b.binding b.clauses hb
  | reset other =>
      refine h.change other fun _ b b' _ heq => ?_
      rw [Builder.reset_ok heq]
      exact emptied
  | release other =>
      refine h.change other fun _ b b' _ heq => ?_
      obtain rfl := Except.ok.inj heq
      exact emptied
  | send other t =>
      change (s.send other t).1.Own id P
      rcases s.send_cases other t with ⟨e, hrefused⟩ | ⟨b, plan, hget, _, _, hsent⟩
      · rw [hrefused]
        exact h
      · rw [hsent]
        exact h.set fun hid => h b (hid ▸ hget)

theorem own_run {calls : List Call} (emptied : P {})
    (added : ∀ c, .clause id c ∈ calls → ∀ b clauses, P clauses → P (clauses.add b c).1) :
    (run calls).Own id P := by
  have hfold : ∀ (s : Shelf) (later : List Call), s.Own id P → (∀ call ∈ later, call ∈ calls) →
      (later.foldl Shelf.step s).Own id P := by
    intro s later
    induction later generalizing s with
    | nil => exact fun h _ => h
    | cons call rest ih =>
        intro h hmem
        refine ih (s.step call) (h.step emptied fun c hc => ?_)
          fun call' hcall' => hmem call' (List.mem_cons_of_mem call hcall')
        exact added c (hc ▸ hmem call List.mem_cons_self)
  exact hfold {} calls (fun b hget => by cases hget) fun _ h => h

/-- What the clauses of a builder bring is all that it holds. -/
theorem own_items {calls : List Call} {Q : Item → Prop}
    (brought : ∀ c, .clause id c ∈ calls → ∀ b x, c.Brings b x → Q x) {b : Builder}
    (hget : (run calls).get? id = some b) : ∀ x, b.clauses.Has x → Q x := by
  have hown : (run calls).Own id fun clauses => ∀ x, clauses.Has x → Q x := by
    refine own_run (fun x hx => ?_) fun c hc binding clauses h x hx => ?_
    · cases x <;> cases hx
    · exact (clauses.grows_add binding c x hx).elim (h x) (brought c hc binding x)
  exact hown b hget

end Shelf

/-- What conditions ask for that a section joins by conjunctions, beside what is asked anyway: rows
that fit each of them are never left out, and if none of the supplied texts offers an alternative, no
others are let in. -/
structure Conjoined (alone : Prop) (anyway : (List Token → Bool) → Bool)
    (section_ : Option (List Piece)) (parts : List (List Piece)) : Prop where
  reads : ∀ v n, filterHolds v n section_ = (anyway v && (reading v n parts).any id)
  admits : ∀ v n, (anyway v && eachHolds v n parts) = true → filterHolds v n section_ = true
  exact_ : alone → ∀ v n, filterHolds v n section_ = (anyway v && eachHolds v n parts)

theorem Conjoined.of_reads {alone : Prop} {anyway : (List Token → Bool) → Bool}
    {section_ : Option (List Piece)} {parts : List (List Piece)}
    (reads : ∀ v n, filterHolds v n section_ = (anyway v && (reading v n parts).any id))
    (single : alone → ∀ ps ∈ parts, Alone (marks ps)) : Conjoined alone anyway section_ parts where
  reads := reads
  admits := by
    intro v n h
    rw [Bool.and_eq_true] at h
    rw [reads, h.1, any_reading_of_each h.2, Bool.and_self]
  exact_ := by
    intro h v n
    rw [reads, any_reading_of_alone (single h)]

/-- A statement whose filter conjoins its conditions with what soft deletion admits. -/
def ConjoinsConditions (alone : Prop) (write : Nat → Except Fault (List Piece)) (b : Builder)
    (st : Statement.Bound) : Prop :=
  ∃ filter parts front back, st = bind (front ++ whereClause filter ++ back) ∧
    b.conditions write = .ok filter ∧
    (b.clauses.conditions.mapM fun c => expand write c.phrase) = .ok parts ∧
    Conjoined alone b.admits filter parts

/-- A statement that conjoins its conditions on groups. -/
def ConjoinsGroups (alone : Prop) (write : Nat → Except Fault (List Piece)) (b : Builder)
    (st : Statement.Bound) : Prop :=
  ∃ parts front back,
    st = bind (front ++ Builder.havingClause (conjunction parts) ++ back) ∧
    b.clauses.havings.mapM (expand write) = .ok parts ∧
    Conjoined alone (fun _ => true) (conjunction parts) parts

namespace Builder

variable {b : Builder} (hb : b.binding.Fits Texture.balanced) (hc : b.clauses.Fits Texture.balanced)
  {alone : Prop} (stand : ∀ x, b.clauses.Has x → x.Conjoins ClosesRanges)
  (single : alone → ∀ x, b.clauses.Has x → x.Conjoins Steady)
  {write : Nat → Except Fault (List Piece)} (hw : Texture.balanced.Writes write)

include hb hc stand single hw

theorem conjoins_conditions (column : b.binding.softDelete = true → b.NamesColumn)
    {filter : Option (List Piece)} (h : b.conditions write = .ok filter) :
    ∃ parts, (b.clauses.conditions.mapM fun c => expand write c.phrase) = .ok parts ∧
      Conjoined alone b.admits filter parts := by
  obtain ⟨parts, hparts, hreads⟩ := conditions_conjoined hb hc hw column
    (fun c hmem => (stand (.condition c) hmem).1) (fun c hmem => (stand (.condition c) hmem).2) h
  refine ⟨parts, hparts, .of_reads hreads fun halone ps hps n => ?_⟩
  obtain ⟨c, hmem, hwritten⟩ := exists_left_of_mapM hparts hps
  exact (((single halone (.condition c) hmem).2 write hw ps hwritten).sound n).single

omit hb hc

theorem conjoins_groups {parts : List (List Piece)}
    (h : b.clauses.havings.mapM (expand write) = .ok parts) :
    Conjoined alone (fun _ => true) (conjunction parts) parts := by
  refine .of_reads (fun v n => ?_) fun halone ps hps n => ?_
  · refine (filterHolds_conjunction (fun ps hps => ?_) v n).trans (Bool.true_and _).symm
    obtain ⟨p, hmem, hwritten⟩ := exists_left_of_mapM h hps
    exact stand (.having p) hmem write hw ps hwritten
  · obtain ⟨p, hmem, hwritten⟩ := exists_left_of_mapM h hps
    exact ((single halone (.having p) hmem write hw ps hwritten).sound n).single

theorem conjoinsGroups_framed {shape : Shape} (shown : shape.grouping = true) {ps : List Piece}
    (h : b.pieces write shape = .ok ps) (front back : List Piece) :
    ConjoinsGroups alone write b (bind (front ++ ps ++ back)) := by
  obtain ⟨parts, before, after, hparts, rfl⟩ := pieces_having shown h
  exact ⟨parts, front ++ before, after ++ back, by simp, hparts,
    conjoins_groups stand single hw hparts⟩

include hb hc

theorem conjoinsConditions_framed (column : b.binding.softDelete = true → b.NamesColumn)
    (deletes : Bool) {shape : Shape} {ps : List Piece}
    (h : (if deletes then b.deletion write else b.pieces write shape) = .ok ps)
    (front back : List Piece) : ConjoinsConditions alone write b (bind (front ++ ps ++ back)) := by
  obtain ⟨filter, before, after, hfilter, hmarks⟩ : ∃ filter before after,
      b.conditions write = .ok filter ∧ marks ps = marks (before ++ whereClause filter ++ after) := by
    cases deletes with
    | true =>
        obtain ⟨filter, before, hfilter, hmarks⟩ := deletion_where h
        exact ⟨filter, before, [], hfilter, by rw [List.append_nil, hmarks]⟩
    | false =>
        obtain ⟨filter, before, after, hfilter, heq⟩ := pieces_where h
        exact ⟨filter, before, after, hfilter, congrArg marks heq⟩
  obtain ⟨parts, hparts, hconjoined⟩ := conjoins_conditions hb hc stand single hw column hfilter
  exact ⟨filter, parts, front ++ before, after ++ back, bind_eq_of_marks (by simp [hmarks]), hfilter,
    hparts, hconjoined⟩

end Builder

namespace Shelf

/-- No raw text of a builder offers an alternative outside parentheses. -/
def SuppliesNone (calls : List Call) (id : Nat) : Prop :=
  ∀ c, .clause id c ∈ calls → ∀ m ∈ c.fragment?, Alone m.marks

theorem balanced_rawMarked {calls : List Call} {id : Nat}
    (balanced : ∀ call ∈ calls, ∀ s ∈ call.rawTexts, BalancedText s.toList) {c : Clause}
    (hcall : .clause id c ∈ calls) : ∀ m ∈ c.rawMarked, BalancedText m.text.toList :=
  fun m hm => balanced _ hcall m.text (List.mem_append_left _ (List.mem_map_of_mem hm))

section Brought

variable {calls : List Call} {id : Nat}
  (balanced : ∀ call ∈ calls, ∀ s ∈ call.rawTexts, BalancedText s.toList)
  (conjoins : ∀ c, .clause id c ∈ calls → c.Conjoins)
  {b : Builder} (hget : (run calls).get? id = some b)

include balanced conjoins hget

theorem held_closesRanges : ∀ x, b.clauses.Has x → x.Conjoins ClosesRanges := by
  refine own_items (fun c hcall _ _ brings => ?_) hget
  exact conjoins_brought (fun _ => Steady.closesRanges) (conjoins c hcall)
    (balanced_rawMarked balanced hcall) (conjoins c hcall).closed brings

theorem held_steady (single : SuppliesNone calls id) :
    ∀ x, b.clauses.Has x → x.Conjoins Steady := by
  refine own_items (fun c hcall _ _ brings => ?_) hget
  refine conjoins_brought (fun _ h => h) (conjoins c hcall) (balanced_rawMarked balanced hcall)
    (fun m hm n => ?_) brings
  have hcut := single c hcall m hm n
  refine ⟨hcut, (conjoins c hcall).closed m hm n _ ?_⟩
  rw [alternatives_single hcut]
  exact List.mem_singleton_self _

end Brought

/-- After any calls whose raw texts close their quotes and parentheses, the filter of a builder whose
conditions are connected by conjunctions asks for what soft deletion admits and for what the conditions
read as one behind the other, and so do its conditions on groups: alternatives of raw text that face a
conjunction go together with the condition behind it. All conditions are asked for, and nothing else,
where no raw text offers an alternative. -/
theorem conjunctions_face_alternatives (calls : List Call)
    (balanced : ∀ call ∈ calls, ∀ s ∈ call.rawTexts, BalancedText s.toList)
    (labels : ∀ call ∈ calls, ∀ s ∈ call.labels, '"' ∉ s.toList) {id : Nat}
    (conjoins : ∀ c, .clause id c ∈ calls → c.Conjoins) {b : Builder}
    (hget : (run calls).get? id = some b) (column : b.binding.softDelete = true → b.NamesColumn) :
    (∀ st, (run calls).toSql b = .ok st →
      ConjoinsConditions (SuppliesNone calls id) (run calls).embedded b st ∧
      ConjoinsGroups (SuppliesNone calls id) (run calls).embedded b st) ∧
    ∀ t plan sent, b.plan t = .ok plan → ((run calls).send id t).2 = .ok sent →
      ConjoinsConditions (SuppliesNone calls id) ((run calls).send id t).1.embedded b
        sent.statement ∧
      (plan.deletes = false → plan.shape.grouping = true →
        ConjoinsGroups (SuppliesNone calls id) ((run calls).send id t).1.embedded b
          sent.statement) := by
  have hrun : (run calls).Fits Texture.balanced :=
    fits_run fun call hcall => fits_balanced (labels call hcall) (balanced call hcall)
  obtain ⟨hb, hc⟩ := hrun.get hget
  have hstand := held_closesRanges balanced conjoins hget
  have hsingle := held_steady balanced conjoins hget
  refine ⟨fun st hst => ?_, fun t plan sent hplan hsent => ?_⟩
  · obtain ⟨ps, hps, rfl⟩ := toSql_ok hst
    have hw := writes_write hrun (run calls).builders.length
    have hconditions := Builder.conjoinsConditions_framed hb hc hstand hsingle hw
      column false hps [] []
    have hgroups := Builder.conjoinsGroups_framed hstand hsingle hw rfl hps [] []
    rw [List.nil_append, List.append_nil] at hconditions hgroups
    exact ⟨hconditions, hgroups⟩
  · obtain ⟨b', plan', ps, hget', hplan', hwritten, hstatement⟩ := send_written hsent
    obtain rfl : b = b' := Option.some.inj (hget.symm.trans hget')
    obtain rfl : plan = plan' := Except.ok.inj (hplan.symm.trans hplan')
    have hw := writes_write (fits_send hrun id t) ((run calls).send id t).1.builders.length
    obtain ⟨front, back, hwrap⟩ := Builder.wrap_frames hplan
    rw [hstatement, hwrap]
    refine ⟨Builder.conjoinsConditions_framed hb hc hstand hsingle hw column plan.deletes hwritten front
      back, fun hreads hgrouping => ?_⟩
    rw [hreads, if_neg Bool.false_ne_true] at hwritten
    exact Builder.conjoinsGroups_framed hstand hsingle hw hgrouping hwritten front back

/-- Posts of one tenant that are shown to anyone, with soft deletion and a condition on groups. -/
def shared : List Call :=
  [.make { label := "Posts", table := "posts", selectAll := "", softDelete := true } .null,
   .clause 0 (.rawCondition .and (.text "published = true OR featured = true") []),
   .clause 0 (.condition .and (.text "tenant_id") (.text "eq") (.int 3)),
   .clause 0 (.groupBy [.text "author_id"]),
   .clause 0 (.having (.text "COUNT(*) > 1") [])]

theorem balanced_shared : ∀ call ∈ shared, ∀ s ∈ call.rawTexts, BalancedText s.toList := by
  have htexts : shared.flatMap Call.rawTexts =
      ["", "published = true OR featured = true", "COUNT(*) > 1"] := rfl
  intro call hcall s hs
  have hmem := List.mem_flatMap.mpr ⟨call, hcall, hs⟩
  rw [htexts, List.mem_cons, List.mem_cons, List.mem_singleton] at hmem
  rcases hmem with rfl | rfl | rfl
  · exact .nil
  · exact balanced_of_free (by decide)
  · have hcount : BalancedText "COUNT".toList := balanced_of_free (by decide)
    have hstar : BalancedText ['*'] := balanced_of_free (by decide)
    have hend : BalancedText " > 1".toList := balanced_of_free (by decide)
    exact .append hcount (.append (.enclosed hstar) hend)

theorem conjoins_shared : ∀ c, .clause 0 c ∈ shared → c.Conjoins := by
  intro c hc
  simp only [shared, List.mem_cons, List.not_mem_nil, reduceCtorEq, Call.clause.injEq, true_and,
    false_or, or_false] at hc
  rcases hc with rfl | rfl | rfl | rfl
  · refine ⟨by simp [Clause.link?], by simp [Clause.column?], by simp [Clause.fragment?], ?_⟩
    intro m hm n
    cases hm
    have hcut : cut .or 0 false (tokens "published = true OR featured = true".toList) =
        some (tokens "published = true".toList, tokens "featured = true".toList) := by
      decide +kernel
    rw [Marked.marks, fill_chars (by decide), numbered_chars]
    exact closesRanges_cons hcut (by decide) (closesRanges_single (by decide) (by decide))
  · refine ⟨by simp [Clause.link?], ?_, by simp [Clause.fragment?], by simp [Clause.fragment?]⟩
    intro column hcolumn
    cases hcolumn
    decide
  · constructor <;> simp [Clause.link?, Clause.column?, Clause.fragment?]
  · refine ⟨by simp [Clause.link?], by simp [Clause.column?], by simp [Clause.fragment?], ?_⟩
    intro m hm n
    cases hm
    rw [Marked.marks, fill_chars (by decide), numbered_chars]
    exact closesRanges_single (by decide) (by decide)

theorem conjunctions_face_alternatives_shared :
    (∀ call ∈ shared, ∀ s ∈ call.rawTexts, BalancedText s.toList) ∧
    (∀ call ∈ shared, ∀ s ∈ call.labels, '"' ∉ s.toList) ∧
    (∀ c, .clause 0 c ∈ shared → c.Conjoins) ∧
    ∃ b st, (run shared).get? 0 = some b ∧ b.NamesColumn ∧ (run shared).toSql b = .ok st ∧
      ConjoinsConditions (SuppliesNone shared 0) (run shared).embedded b st ∧
      ConjoinsGroups (SuppliesNone shared 0) (run shared).embedded b st ∧
      st.sql = "SELECT posts.* FROM posts WHERE posts.deleted_at IS NULL AND (published = true "
        ++ "OR featured = true AND tenant_id = $1) GROUP BY author_id HAVING COUNT(*) > 1" := by
  have hlabels : ∀ call ∈ shared, ∀ s ∈ call.labels, '"' ∉ s.toList := by decide
  obtain ⟨b, hget⟩ : ∃ b, (run shared).get? 0 = some b :=
    ⟨_, List.getElem?_eq_getElem (by decide)⟩
  have htable : ((run shared).get? 0).map (·.binding.table) = some "posts" := by decide
  rw [hget, Option.map_some, Option.some.injEq] at htable
  have hcolumn : b.NamesColumn :=
    Builder.namesColumn_of_table (by rw [htable]; decide) (by rw [htable]; decide)
  have hsql : (((run shared).get? 0).map (run shared).toSql).bind (·.toOption.map (·.sql)) =
      some ("SELECT posts.* FROM posts WHERE posts.deleted_at IS NULL AND (published = true "
        ++ "OR featured = true AND tenant_id = $1) GROUP BY author_id HAVING COUNT(*) > 1") := by
    decide +kernel
  rw [hget, Option.map_some, Option.bind_some] at hsql
  cases hst : (run shared).toSql b with
  | error e =>
      rw [hst] at hsql
      cases hsql
  | ok st =>
      rw [hst] at hsql
      obtain ⟨hreturns, _⟩ :=
        conjunctions_face_alternatives shared balanced_shared hlabels conjoins_shared hget fun _ => hcolumn
      obtain ⟨hconditions, hgroups⟩ := hreturns st hst
      exact ⟨balanced_shared, hlabels, conjoins_shared, b, st, hget, hcolumn, hst, hconditions, hgroups,
        Option.some.inj hsql⟩

/-- The same posts without soft deletion. -/
def tenanted : List Call :=
  [.make { label := "Posts", table := "posts", selectAll := "" } .null,
   .clause 0 (.rawCondition .and (.text "published = true OR featured = true") []),
   .clause 0 (.condition .and (.text "tenant_id") (.text "eq") (.int 3))]

/-- The condition on the tenant is not asked of a post that is published. -/
theorem published_escapes_tenant :
    ∃ b filter parts v, (run tenanted).get? 0 = some b ∧
      ((run tenanted).toSql b).toOption.map (·.sql) =
        some "SELECT posts.* FROM posts WHERE published = true OR featured = true AND tenant_id = $1" ∧
      b.conditions (run tenanted).embedded = .ok filter ∧
      (b.clauses.conditions.mapM fun c => expand (run tenanted).embedded c.phrase) = .ok parts ∧
      filterHolds v 1 filter = true ∧ (b.admits v && eachHolds v 1 parts) = false := by
  let public_ : List Piece := [.text "published = true OR featured = true"]
  let owned : List Piece := [.text "tenant_id = ", .slot (.int 3)]
  let published : List Token := tokens "published = true".toList
  have hcut : cut .or 0 false (tokens (sqlFrom 1 (public_ ++ .text " AND " :: owned)).toList) =
      some (published, tokens "featured = true AND tenant_id = $1".toList) := by
    decide +kernel
  have howned : IsAtom (tokens (sqlFrom 1 owned).toList) := ⟨by decide, by decide⟩
  refine ⟨_, some (public_ ++ .text " AND " :: owned), [public_, owned], (· == published),
    rfl, by decide +kernel, rfl, rfl, ?_, ?_⟩
  · rw [filterHolds_some, ← any_branches, branches_cons _ hcut, parse_atom ⟨by decide, rfl⟩]
    rfl
  · have hblind : (parse (tokens (sqlFrom 1 owned).toList)).holds (· == published) = false := by
      have hother : tokens (sqlFrom 1 [.text "tenant_id = ", .slot (.int 3)]).toList ≠
          tokens "published = true".toList := by decide
      rw [parse_atom howned]
      exact beq_false_of_ne hother
    rw [eachHolds, eachHolds]
    change (true && (_ && ((parse (tokens (sqlFrom 1 owned).toList)).holds _ && true))) = false
    rw [hblind, Bool.false_and, Bool.and_false, Bool.and_false]

end Shelf

end TableLoom.Query
