import TableLoom.Proofs.Query.Alternatives
import TableLoom.Proofs.Query.Balance
import TableLoom.Proofs.Query.Formula
import TableLoom.Proofs.Query.Frames

/-!
No condition gets around soft deletion. Whatever conditions a statement has, read with conjunctions
before alternatives they ask for a row that is not deleted, or deleted, and for what they would ask
without soft deletion.
-/

namespace TableLoom.Query

/-- Whether a filter holds when its placeholders are numbered from `n` on. No filter always does. -/
def filterHolds (v : List Token → Bool) (n : Nat) : Option (List Piece) → Bool
  | none => true
  | some ps => (parse (tokens (sqlFrom n ps).toList)).holds v

theorem filterHolds_some (v : List Token → Bool) (n : Nat) (ps : List Piece) :
    filterHolds v n (some ps) = (parse (tokens (sqlFrom n ps).toList)).holds v := rfl

theorem tokens_conjoined {g : List Char} (open_ : (Lexing.blank.after g).isQuoted = false)
    (u : List Char) :
    tokens (g ++ " AND ".toList ++ u) = tokens g ++ .word "AND".toList :: tokens u := by
  have hword : tokens ("AND".toList ++ ' ' :: u) = .word "AND".toList :: tokens u := by
    rw [tokens_append (by decide) (by decide), tokens_blank (by decide) (by decide) (by decide)]
    rfl
  have htext : g ++ " AND ".toList ++ u = g ++ ' ' :: ("AND".toList ++ ' ' :: u) := by simp
  rw [htext, tokens_append open_ (by decide), tokens_blank (by decide) (by decide) (by decide), hword]

theorem tokens_enclosed {u : List Char} (open_ : (Lexing.blank.after u).isQuoted = false) :
    tokens ('(' :: u ++ [')']) = .mark '(' :: tokens u ++ [.mark ')'] := by
  rw [List.cons_append, tokens_mark (by decide) (by decide) (by decide),
    tokens_append open_ (by decide)]
  rfl

theorem run_of_isNameRest {c : Char} (h : Text.isNameRest c = true) : Lexing.isRun c = true := by
  have hsmall : c.toNat < 128 := by
    rw [Text.isNameRest, Char.isAlphanum, Bool.or_eq_true, Bool.or_eq_true, beq_iff_eq] at h
    rcases h with (halpha | hdigit) | rfl
    · have hbounds := Text.toNat_of_isAlpha halpha
      omega
    · have hbounds := Text.toNat_of_isDigit hdigit
      omega
    · decide
  rw [Lexing.isRun, Text.isWord, if_pos hsmall]
  exact Bool.or_eq_true_iff.mpr (.inl h)

/-- A guard: plain text that is a single condition. -/
def IsGuard (g : List Char) : Prop :=
  g.all isPlain = true ∧ IsAtom (tokens g)

theorem holds_guard {g : List Char} (h : IsGuard g) (v : List Token → Bool) :
    (parse (tokens g)).holds v = v (tokens g) := by
  rw [parse_atom h.2]
  rfl

/-- Conditions that offer no alternative can stand right behind a guard. -/
theorem holds_conjoined {g : List Char} (h : IsGuard g) {u : List Char}
    (single : ∀ t ∈ tokens u, t.is "or" = false) (v : List Token → Bool) :
    (parse (tokens (g ++ " AND ".toList ++ u))).holds v =
      (v (tokens g) && (parse (tokens u)).holds v) := by
  rw [tokens_conjoined (balanced_of_plain h.1).ends_open,
    parse_conjunction h.2 rfl (cut_or_none single 0 false)]
  rfl

/-- Any conditions can stand in parentheses behind a guard. -/
theorem holds_enclosed {g : List Char} (h : IsGuard g) {u : List Char} (balanced : BalancedText u)
    (v : List Token → Bool) :
    (parse (tokens (g ++ " AND ".toList ++ ('(' :: u ++ [')'])))).holds v =
      (v (tokens g) && (parse (tokens u)).holds v) := by
  have hbalance := balanced.balance_tokens 0
  rw [tokens_conjoined (balanced_of_plain h.1).ends_open, tokens_enclosed balanced.ends_open,
    parse_conjunction h.2 rfl (cut_enclosed .or hbalance), parse_enclosed hbalance]
  rfl

namespace Builder

/-- The column that tells when a row was deleted. -/
def deletedColumn (b : Builder) : String :=
  Naming.qualify b.binding.table "deleted_at"

/-- The same builder over a table without soft deletion. -/
def unguarded (b : Builder) : Builder :=
  { b with binding := { b.binding with softDelete := false } }

/-- What soft deletion asks of a row. -/
def admits (v : List Token → Bool) (b : Builder) : Bool :=
  if b.binding.softDelete then
    match b.clauses.deleted with
    | .hide => v (tokens (b.deletedColumn ++ " IS NULL").toList)
    | .only => v (tokens (b.deletedColumn ++ " IS NOT NULL").toList)
    | .show_ => true
  else true

theorem admits_eq (v : List Token → Bool) (b : Builder) :
    b.admits v = b.guard?.elim true fun g => v (tokens g.toList) := by
  unfold admits guard? deletedColumn
  cases b.binding.softDelete with
  | false => rfl
  | true => cases b.clauses.deleted <;> rfl

/-- Behind a guard the conditions of the caller hold as they would alone. -/
theorem holds_guarded {guard : Option String} (isGuard : ∀ g ∈ guard, IsGuard g.toList)
    {user : List Piece} (balanced : Texture.balanced.loose (marks user)) (v : List Token → Bool)
    (n : Nat) :
    filterHolds v n (guarded guard user) =
      (guard.elim true (fun g => v (tokens g.toList)) && filterHolds v n (guarded none user)) := by
  cases guard with
  | none => rw [Option.elim_none, Bool.true_and]
  | some g =>
      have hg := isGuard g rfl
      rw [Option.elim_some]
      cases hblank : isBlank user with
      | true =>
          have hfilter : guarded (some g) user = some [.text g] := by
            simp [guarded, hblank]
          have hbare : guarded none user = none := by
            simp [guarded, hblank]
          rw [hfilter, hbare, filterHolds_some, toList_sqlFrom, marks_text, marks_nil,
            List.append_nil, numbered_chars, holds_guard hg]
          exact (Bool.and_true _).symm
      | false =>
          have hbare : guarded none user = some user := by
            simp [guarded, hblank]
          rw [hbare, filterHolds_some, toList_sqlFrom]
          cases hor : mentionsOr (sqlFrom 1 user) with
          | true =>
              have hfilter : guarded (some g) user =
                  some (.text (g ++ " AND (") :: user ++ [.text ")"]) := by
                simp [guarded, hblank, hor]
              have htext : (sqlFrom n (.text (g ++ " AND (") :: user ++ [.text ")"])).toList =
                  g.toList ++ " AND ".toList ++ ('(' :: numbered n (marks user) ++ [')']) := by
                simp [toList_sqlFrom, numbered_append, numbered]
              rw [hfilter, filterHolds_some, htext, holds_enclosed hg (balanced n)]
          | false =>
              have hfilter : guarded (some g) user = some (.text (g ++ " AND ") :: user) := by
                simp [guarded, hblank, hor]
              have htext : (sqlFrom n (.text (g ++ " AND ") :: user)).toList =
                  g.toList ++ " AND ".toList ++ numbered n (marks user) := by
                simp [toList_sqlFrom, numbered_append, numbered]
              rw [hfilter, filterHolds_some, htext, holds_conjoined hg (single_of_unmentioned hor n)]

/-- The column of deletion reads as a single name. -/
def NamesColumn (b : Builder) : Prop :=
  IsAtom (tokens b.deletedColumn.toList)

theorem isGuard_of_column {b : Builder} (table : isGlue b.binding.table.toList = true)
    (column : b.binding.softDelete = true → b.NamesColumn) : ∀ g ∈ b.guard?, IsGuard g.toList := by
  have hglue : b.deletedColumn.toList.all isPlain = true :=
    plain_of_glue (glue_qualify table (by decide))
  have hopen := (balanced_of_plain hglue).ends_open
  have htest : ∀ {test : String} {rest : List Char}, b.NamesColumn → test.toList = ' ' :: rest →
      test.toList.all isPlain = true → IsAtom (tokens test.toList) →
      IsGuard (b.deletedColumn ++ test).toList := by
    intro test rest hcolumn htest hplain hatom
    rw [String.toList_append]
    refine ⟨by rw [List.all_append, hglue, hplain, Bool.and_self], ?_⟩
    rw [htest] at hatom ⊢
    rw [tokens_append hopen (by decide)]
    exact IsAtom.append hcolumn hatom
  intro g hg
  unfold guard? at hg
  simp only at hg
  split at hg
  · cases hg
  · next hsoft =>
      have hcolumn := column (by simpa using hsoft)
      split at hg
      · cases hg
        exact htest hcolumn rfl (by decide) ⟨by decide, rfl⟩
      · cases hg
        exact htest hcolumn rfl (by decide) ⟨by decide, rfl⟩
      · cases hg

/-- A table whose name has no line break names its column of deletion. -/
theorem namesColumn_of_table {b : Builder} (table : Text.isIdentifier b.binding.table = true)
    (line : '\n' ∉ b.binding.table.toList) : b.NamesColumn := by
  have hdrop : Text.dropLineEnd b.binding.table.toList = b.binding.table.toList := by
    rw [Text.dropLineEnd, if_neg]
    rw [beq_iff_eq]
    exact fun hlast => line (List.mem_of_getLast? hlast)
  have hrun : ∀ c ∈ b.binding.table.toList, Lexing.isRun c = true := by
    rw [Text.isIdentifier, hdrop] at table
    exact fun c hc => run_of_isNameRest (Text.isNameRest_of_isNameChars table c hc)
  have hcolumn : b.deletedColumn.toList = b.binding.table.toList ++ ".deleted_at".toList := by
    change (b.binding.table ++ "." ++ "deleted_at").toList = _
    simp
  have hpoint : '.' ∈ b.deletedColumn.toList := by
    rw [hcolumn]
    exact List.mem_append_right _ (by decide)
  have hword : tokens b.deletedColumn.toList = [.word b.deletedColumn.toList] := by
    refine tokens_word (List.ne_nil_of_mem hpoint) ?_
    rw [hcolumn]
    exact List.forall_mem_append.mpr ⟨hrun, List.all_eq_true.mp (by decide)⟩
  have hname : ∀ name : String, '.' ∉ name.toList →
      (Token.word b.deletedColumn.toList).is name = false := by
    intro name hfree
    rw [Token.is, beq_eq_false_iff_ne]
    intro heq
    exact hfree (heq ▸ List.mem_map.mpr ⟨'.', hpoint, rfl⟩)
  have hand := hname "and" (by decide)
  have hor := hname "or" (by decide)
  have hbetween := hname "between" (by decide)
  have hnot := hname "not" (by decide)
  unfold NamesColumn
  rw [hword]
  exact ⟨by simp [Token.isInert, hand, hor, hbetween], by simp [negated?, hnot]⟩

/-- With soft deletion the conditions ask for what it admits, and for what they would ask without. -/
theorem conditions_guarded {b : Builder} (hb : b.binding.Fits Texture.balanced)
    (hc : b.clauses.Fits Texture.balanced) {write : Nat → Except Fault (List Piece)}
    (hw : Texture.balanced.Writes write)
    (column : b.binding.softDelete = true → b.NamesColumn) {filter : Option (List Piece)}
    (h : b.conditions write = .ok filter) :
    ∃ user, b.unguarded.conditions write = .ok user ∧
      ∀ v n, filterHolds v n filter = (b.admits v && filterHolds v n user) := by
  obtain ⟨user, huser, heq⟩ := bind_ok h
  obtain rfl := Except.ok.inj heq
  have hbare : (b.unguarded.clauses.conditions.mapM fun c =>
      return (c.link, ← expand write c.phrase)) = .ok user := huser
  refine ⟨guarded none (connect user), ?_, fun v n => ?_⟩
  · rw [conditions, hbare]
    rfl
  · rw [admits_eq]
    exact holds_guarded (isGuard_of_column hb.table column) (loose_user hc hw huser) v n

end Builder

/-- A statement whose filter asks for what soft deletion admits, and for what it would ask without. -/
structure Guards (write : Nat → Except Fault (List Piece)) (b : Builder) (st : Statement.Bound)
    (filter user : Option (List Piece)) : Prop where
  statement : ∃ front back, st = bind (front ++ whereClause filter ++ back)
  guarded : b.conditions write = .ok filter
  unguarded : b.unguarded.conditions write = .ok user
  holds : ∀ v n, filterHolds v n filter = (b.admits v && filterHolds v n user)

namespace Shelf

/-- After any calls whose raw texts close their quotes and parentheses, soft deletion guards every
statement, whether it is asked for or sent by a terminal operation. The column of deletion has to read
as a name, which fails only for a table that a connective names with a line break behind it. -/
theorem soft_deletion_guards (calls : List Call)
    (balanced : ∀ call ∈ calls, ∀ s ∈ call.rawTexts, BalancedText s.toList)
    (labels : ∀ call ∈ calls, ∀ s ∈ call.labels, '"' ∉ s.toList) {id : Nat} {b : Builder}
    (hget : (run calls).get? id = some b)
    (column : b.binding.softDelete = true → b.NamesColumn) :
    (∀ st, (run calls).toSql b = .ok st →
      ∃ filter user, Guards (run calls).embedded b st filter user) ∧
    ∀ t sent, ((run calls).send id t).2 = .ok sent →
      ∃ filter user, Guards ((run calls).send id t).1.embedded b sent.statement filter user := by
  have hrun : (run calls).Fits Texture.balanced :=
    fits_run fun call hcall => fits_balanced (labels call hcall) (balanced call hcall)
  obtain ⟨hb, hc⟩ := hrun.get hget
  refine ⟨fun st hst => ?_, fun t sent hsent => ?_⟩
  · obtain ⟨ps, hps, rfl⟩ := toSql_ok hst
    obtain ⟨filter, front, back, hfilter, rfl⟩ := Builder.pieces_where hps
    obtain ⟨user, huser, hholds⟩ :=
      Builder.conditions_guarded hb hc (writes_write hrun _) column hfilter
    exact ⟨filter, user, ⟨front, back, rfl⟩, hfilter, huser, hholds⟩
  · obtain ⟨b', plan, ps, hget', hplan, hwritten, hstatement⟩ := send_ok hsent
    obtain rfl : b = b' := Option.some.inj (hget.symm.trans hget')
    obtain ⟨front, back, hwrap⟩ := Builder.wrap_frames hplan
    have hwhere : ∃ filter before after,
        b.conditions ((run calls).send id t).1.embedded = .ok filter ∧
          marks ps = marks (before ++ whereClause filter ++ after) := by
      rcases hwritten with hdeletion | hpieces
      · obtain ⟨filter, before, hfilter, hmarks⟩ := Builder.deletion_where hdeletion
        exact ⟨filter, before, [], hfilter, by rw [List.append_nil, hmarks]⟩
      · obtain ⟨filter, before, after, hfilter, rfl⟩ := Builder.pieces_where hpieces
        exact ⟨filter, before, after, hfilter, rfl⟩
    obtain ⟨filter, before, after, hfilter, hmarks⟩ := hwhere
    have hw := writes_write (fits_send hrun id t) ((run calls).send id t).1.builders.length
    obtain ⟨user, huser, hholds⟩ := Builder.conditions_guarded hb hc hw column hfilter
    refine ⟨filter, user, ⟨front ++ before, after ++ back, ?_⟩, hfilter, huser, hholds⟩
    rw [hstatement]
    refine bind_eq_of_marks ?_
    rw [hwrap, marks_append, marks_append, hmarks]
    simp

/-- Alternatives of a table with soft deletion, beside a query whose raw text quotes one. -/
def alternatives : List Call :=
  [.make { label := "Posts", table := "posts", selectAll := "", softDelete := true } .null,
   .make { label := "Comments", table := "comments", selectAll := "" } .null,
   .clause 1 (.rawCondition .and (.text "note = 'a) OR b' OR total > ?") [.int 5]),
   .clause 0 (.condition .and (.text "views") (.text "gt") (.int 1)),
   .clause 0 (.condition .or (.text "active") (.text "eq") (.bool true)),
   .clause 0 (.existence false (some 1))]

theorem soft_deletion_guards_alternatives :
    (∀ call ∈ alternatives, ∀ s ∈ call.rawTexts, BalancedText s.toList) ∧
    (∀ call ∈ alternatives, ∀ s ∈ call.labels, '"' ∉ s.toList) ∧
    ∃ b sent filter user, (run alternatives).get? 0 = some b ∧ b.NamesColumn ∧
      ((run alternatives).send 0 .delete).2 = .ok sent ∧
      Guards ((run alternatives).send 0 .delete).1.embedded b sent.statement filter user ∧
      sent.statement.sql = "DELETE FROM posts WHERE posts.deleted_at IS NULL AND (views > $1 "
        ++ "OR active = $2 AND EXISTS (SELECT comments.* FROM comments "
        ++ "WHERE note = 'a) OR b' OR total > $3))" := by
  have hraw : BalancedText "note = 'a) OR b' OR total > ?".toList := by
    have hstart : BalancedText "note = ".toList := balanced_of_free (by decide)
    have hquoted := @BalancedText.quoted '\'' "a) OR b".toList rfl (by decide)
    have hend : BalancedText " OR total > ?".toList := balanced_of_free (by decide)
    exact .append hstart (.append hquoted hend)
  have hbalanced : ∀ call ∈ alternatives, ∀ s ∈ call.rawTexts, BalancedText s.toList := by
    have htexts : alternatives.flatMap Call.rawTexts =
        ["", "", "note = 'a) OR b' OR total > ?"] := rfl
    intro call hcall s hs
    have hmem := List.mem_flatMap.mpr ⟨call, hcall, hs⟩
    rw [htexts, List.mem_cons, List.mem_cons, List.mem_singleton] at hmem
    rcases hmem with rfl | rfl | rfl
    · exact .nil
    · exact .nil
    · exact hraw
  have hlabels : ∀ call ∈ alternatives, ∀ s ∈ call.labels, '"' ∉ s.toList := by decide
  obtain ⟨b, hget⟩ : ∃ b, (run alternatives).get? 0 = some b :=
    ⟨_, List.getElem?_eq_getElem (by decide)⟩
  have htable : ((run alternatives).get? 0).map (·.binding.table) = some "posts" := by decide
  rw [hget, Option.map_some, Option.some.injEq] at htable
  have hcolumn : b.NamesColumn :=
    Builder.namesColumn_of_table (by rw [htable]; decide) (by rw [htable]; decide)
  have hsql : ((run alternatives).send 0 .delete).2.toOption.map (·.statement.sql) =
      some ("DELETE FROM posts WHERE posts.deleted_at IS NULL AND (views > $1 "
        ++ "OR active = $2 AND EXISTS (SELECT comments.* FROM comments "
        ++ "WHERE note = 'a) OR b' OR total > $3))") := by
    decide +kernel
  cases hsent : ((run alternatives).send 0 .delete).2 with
  | error e =>
      rw [hsent] at hsql
      cases hsql
  | ok sent =>
      rw [hsent] at hsql
      obtain ⟨_, hsends⟩ := soft_deletion_guards alternatives hbalanced hlabels hget fun _ => hcolumn
      obtain ⟨filter, user, hguards⟩ := hsends .delete sent hsent
      exact ⟨hbalanced, hlabels, b, sent, filter, user, hget, hcolumn, rfl, hguards,
        Option.some.inj hsql⟩

end Shelf

end TableLoom.Query
