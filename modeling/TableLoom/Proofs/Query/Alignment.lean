import TableLoom.Proofs.Query.Embedding
import TableLoom.Proofs.Query.Statements

/-!
Every placeholder of a statement stands where its value was supplied. Whatever sections a statement
has and however deep its queries are nested, it is plain text and supplied text in turn, its values
are those of the supplied texts, and they are numbered from left to right.
-/

namespace TableLoom.Query

def StartsPlain (ms : List Mark) : Prop :=
  ∀ m ∈ ms.head?, m.isDigit = false

theorem startsPlain_append {xs ys : List Mark} (hx : StartsPlain xs) (hy : StartsPlain ys) :
    StartsPlain (xs ++ ys) := by
  cases xs with
  | nil => exact hy
  | cons x xs => exact hx

theorem startsPlain_glue {cs : List Char} (h : isGlue cs = true) (xs : List Mark) :
    StartsPlain (chars cs ++ xs) := by
  cases cs with
  | nil => cases h
  | cons c cs =>
      intro m hm
      obtain rfl := Option.some.inj hm
      rw [isGlue, Bool.and_eq_true] at h
      have hc : c.isDigit = false := by simpa using h.2
      exact hc

theorem apart_append {kind : Mark → Bool} {xs ys : List Mark} (hx : Apart kind xs)
    (hy : Apart kind ys) (hstart : StartsPlain ys) : Apart kind (xs ++ ys) := by
  refine List.isChain_append.mpr ⟨hx, hy, fun x _ y hmem => ?_⟩
  rw [hstart y hmem, Bool.and_false]

theorem apart_cons {kind : Mark → Bool} {m : Mark} {ms : List Mark} (hm : kind m = false)
    (h : Apart kind ms) : Apart kind (m :: ms) := by
  refine List.isChain_cons.mpr ⟨fun m' _ => ?_, h⟩
  rw [hm, Bool.false_and]

theorem apart_plain {kind : Mark → Bool} (other : ∀ c, c ≠ '$' → kind (.char c) = false)
    {cs : List Char} (h : cs.all isPlain = true) {ms : List Mark} (hms : Apart kind ms) :
    Apart kind (chars cs ++ ms) := by
  induction cs with
  | nil => exact hms
  | cons c cs ih =>
      rw [List.all_cons, Bool.and_eq_true] at h
      have hc : c ≠ '$' := by
        rintro rfl
        cases h.1
      exact apart_cons (other c hc) (ih h.2)

/-- Text in which no digit follows marks of a kind, be they dollars or values. -/
def Texture.apart (kind : Mark → Bool) (other : ∀ c, c ≠ '$' → kind (.char c) = false) :
    Texture where
  firm ms := Apart kind ms ∧ StartsPlain ms
  loose := Apart kind
  label cs := Apart kind (chars cs)
  loose_of_firm h := h.1
  firm_nil := ⟨List.isChain_nil, by simp [StartsPlain]⟩
  firm_append hx hy := ⟨apart_append hx.1 hy.1 hy.2, startsPlain_append hx.2 hy.2⟩
  loose_append hx hy := apart_append hx hy.1 hy.2
  glued h hx := ⟨apart_plain other (plain_of_glue h) hx, startsPlain_glue h _⟩
  enclosed h := by
    have hend : Apart kind [.char ')'] := List.isChain_singleton _
    refine ⟨apart_cons (other '(' (by decide)) (apart_append h hend ?_), ?_⟩
    · simp [StartsPlain, Mark.isDigit]
    · simp [StartsPlain, Mark.isDigit]
  loose_plain h := by
    have hplain := apart_plain other h List.isChain_nil
    rwa [List.append_nil] at hplain
  loose_label h := h
  quoted_label h := by
    have hend : Apart kind [.char '"'] := List.isChain_singleton _
    rw [chars_append, chars_cons]
    refine ⟨apart_cons (other '"' (by decide)) (apart_append h hend ?_), ?_⟩
    · simp [StartsPlain, Mark.isDigit]
    · simp [StartsPlain, Mark.isDigit]
  quoted_list := by
    have hquote := other '\'' (by decide)
    have hopen := other '[' (by decide)
    have hclose := other ']' (by decide)
    refine ⟨?_, ?_⟩
    · exact apart_cons hquote (apart_cons hopen (apart_cons hclose (List.isChain_singleton _)))
    · simp [StartsPlain, Mark.isDigit]

theorem slot_apart {kind : Mark → Bool} (other : ∀ c, c ≠ '$' → kind (.char c) = false)
    (v : Value) : (Texture.apart kind other).firm [.value v] :=
  ⟨List.isChain_singleton _, by simp [StartsPlain, Mark.isDigit]⟩

/-- All that a call supplies with places for values. -/
def Call.supplies : Call → List Marked
  | .clause _ c => c.supplies
  | _ => []

/-- Plain text and supplied text in turn. -/
def Alternates (calls : List Call) (segments : List (List Mark)) : Prop :=
  ∀ g ∈ segments, (∃ cs, g = chars cs) ∨
    ∃ call ∈ calls, ∃ m ∈ call.supplies, m.Complete ∧ g = m.marks

/-- Marks that can be told apart into plain text and supplied text. -/
def Supplied (calls : List Call) (ms : List Mark) : Prop :=
  ∃ segments, Alternates calls segments ∧ segments.flatten = ms

theorem supplied_chars (calls : List Call) (cs : List Char) : Supplied calls (chars cs) :=
  ⟨[chars cs], List.forall_mem_singleton.mpr (.inl ⟨cs, rfl⟩), List.flatten_singleton⟩

theorem supplied_append {calls : List Call} {xs ys : List Mark} (hx : Supplied calls xs)
    (hy : Supplied calls ys) : Supplied calls (xs ++ ys) := by
  obtain ⟨segments, hsegments, rfl⟩ := hx
  obtain ⟨others, hothers, rfl⟩ := hy
  exact ⟨segments ++ others, List.forall_mem_append.mpr ⟨hsegments, hothers⟩, List.flatten_append⟩

/-- Text whose values all come from the calls. -/
def Texture.supplied (calls : List Call) : Texture where
  firm := Supplied calls
  loose := Supplied calls
  label _ := True
  loose_of_firm h := h
  firm_nil := supplied_chars calls []
  firm_append := supplied_append
  loose_append := supplied_append
  glued _ hx := supplied_append (supplied_chars calls _) hx
  enclosed hx := supplied_append (supplied_append (supplied_chars calls ['(']) hx)
    (supplied_chars calls [')'])
  loose_plain _ := supplied_chars calls _
  loose_label _ := supplied_chars calls _
  quoted_label _ := supplied_chars calls _
  quoted_list := supplied_chars calls _

/-- No digit follows a question mark of raw text. -/
def Call.Separates : Call → Prop
  | .clause _ c => ∀ m ∈ c.rawMarked, Separated m.marks
  | _ => True

theorem fits_supplied {calls : List Call} {call : Call} (hmem : call ∈ calls) :
    call.Fits (Texture.supplied calls) := by
  cases call with
  | make binding table =>
      refine ⟨supplied_chars calls _, fun r _ => ?_⟩
      exact ⟨trivial, supplied_chars calls _, supplied_chars calls _, supplied_chars calls _⟩
  | clause id c =>
      refine ⟨fun m hm hcomplete => ?_, fun s _ => supplied_chars calls _⟩
      refine ⟨[m.marks], List.forall_mem_singleton.mpr (.inr ?_), List.flatten_singleton⟩
      exact ⟨_, hmem, m, hm, hcomplete, rfl⟩
  | reset id => trivial
  | release id => trivial
  | send id t => trivial

theorem other_dollar (c : Char) (h : c ≠ '$') : Mark.isDollar (.char c) = false := by
  simpa [Mark.isDollar] using h

theorem other_value (c : Char) (_ : c ≠ '$') : Mark.isValue (.char c) = false := rfl

theorem fits_unnumbered {call : Call}
    (free : ∀ s ∈ call.rawTexts, Unnumbered (chars s.toList)) :
    call.Fits (Texture.apart Mark.isDollar other_dollar) :=
  fits_of_rawTexts (slot_apart other_dollar) (fun h vs => unnumbered_fill h vs)
    (fun s hs => free s (call.labels_subset hs)) free

theorem separated_chars (cs : List Char) : Separated (chars cs) := by
  induction cs with
  | nil => exact List.isChain_nil
  | cons c cs ih => exact apart_cons rfl ih

theorem fits_separated {call : Call} (apart : call.Separates) :
    call.Fits (Texture.apart Mark.isValue other_value) := by
  cases call with
  | make binding table =>
      exact ⟨separated_chars _, fun r _ =>
        ⟨separated_chars _, separated_chars _, separated_chars _, separated_chars _⟩⟩
  | clause id c =>
      exact fits_of_raw (slot_apart other_value) (fun m hm _ => apart m hm)
        fun s _ => separated_chars _
  | reset id => trivial
  | release id => trivial
  | send id t => trivial

/-- A statement is plain text and supplied text in turn. Its values are those of the supplied texts in
order; in its text the placeholders from one on stand in their places, and no other text looks like
one. Reading the text shows exactly these placeholders when no digit follows a question mark. -/
structure Aligned (calls : List Call) (segments : List (List Mark)) (st : Statement.Bound) :
    Prop where
  supplied : Alternates calls segments
  unnumbered : Unnumbered segments.flatten
  params : st.params = valuesIn segments.flatten
  sql : st.sql.toList = numbered 1 segments.flatten
  place : ∀ i (h : i < st.params.length), ∃ before after,
    segments.flatten = before ++ .value st.params[i] :: after ∧ (valuesIn before).length = i ∧
      st.sql.toList = numbered 1 before ++ (Statement.placeholder (i + 1)).toList
        ++ numbered (i + 2) after
  shown : (∀ call ∈ calls, call.Separates) →
    placeholdersIn st.sql.toList = (List.range' 1 st.params.length).map Statement.placeholder

/-- Pieces that are woven from the texts of the calls make an aligned statement. -/
theorem aligned_of_woven {calls : List Call}
    (free : ∀ call ∈ calls, ∀ s ∈ call.rawTexts, Unnumbered (chars s.toList)) {ps : List Piece}
    (woven : Shelf.Woven calls ps) : ∃ segments, Aligned calls segments (bind ps) := by
  obtain ⟨segments, hsegments, hflatten⟩ := woven (Texture.supplied calls) fun _ => fits_supplied
  have hunnumbered : Unnumbered (marks ps) :=
    woven (Texture.apart Mark.isDollar other_dollar) fun call hcall =>
      fits_unnumbered (free call hcall)
  have hparams : (bind ps).params = valuesIn (marks ps) := values_eq ps
  have hsql : (bind ps).sql.toList = numbered 1 (marks ps) := toList_sqlFrom 1 ps
  refine ⟨segments, hsegments, ?_, ?_, ?_, ?_, ?_⟩
  · rw [hflatten]
    exact hunnumbered
  · rw [hflatten]
    exact hparams
  · rw [hflatten]
    exact hsql
  · rw [hflatten, hsql, hparams]
    intro i h
    obtain ⟨before, after, heq, hcount, htext⟩ := numbered_split h 1
    refine ⟨before, after, heq, hcount, ?_⟩
    rw [htext, Nat.add_comm 1 i]
  · intro separates
    have hseparated : Separated (marks ps) :=
      woven (Texture.apart Mark.isValue other_value) fun call hcall =>
        fits_separated (separates call hcall)
    rw [hsql, hparams]
    exact placeholdersIn_numbered hunnumbered hseparated 1

namespace Shelf

/-- After any calls whose raw texts show no placeholders of their own, every statement is aligned,
whether it is asked for or sent by a terminal operation. When besides every raw text is text, every
embedded query is on the shelf and no query contains itself, every builder that is not released has a
statement, and every operation that is accepted sends one. -/
theorem statements_aligned (calls : List Call)
    (free : ∀ call ∈ calls, ∀ s ∈ call.rawTexts, Unnumbered (chars s.toList)) :
    (∀ id b st, (run calls).get? id = some b → (run calls).toSql b = .ok st →
      ∃ segments, Aligned calls segments st) ∧
    (∀ id t sent, ((run calls).send id t).2 = .ok sent →
      ∃ segments, Aligned calls segments sent.statement) ∧
    ((∀ call ∈ calls, call.Sound (run calls).builders.length) → (run calls).Acyclic →
      ∀ id b, (run calls).get? id = some b →
        (b.stage ≠ .released → ∃ st, (run calls).toSql b = .ok st) ∧
        ∀ t plan, b.stage = .unbuilt ∨ b.stage = .configuring → b.plan t = .ok plan →
          ∃ sent, ((run calls).send id t).2 = .ok sent) := by
  refine ⟨?_, ?_, ?_⟩
  · intro id b st hget hst
    obtain ⟨ps, rfl, hwoven⟩ := woven_toSql hget hst
    exact aligned_of_woven free hwoven
  · intro id t sent hsent
    obtain ⟨ps, hps, hwoven⟩ := woven_send hsent
    rw [hps]
    exact aligned_of_woven free hwoven
  · intro sound acyclic id b hget
    refine ⟨toSql_total sound acyclic hget, fun t plan ready hplan => ?_⟩
    exact send_total sound acyclic hget ready hplan

/-- A condition, a query in parentheses that holds raw text, and a condition on groups. -/
def nested : List Call :=
  [.make { label := "Users", table := "users", selectAll := "" } .null,
   .make { label := "Orders", table := "orders", selectAll := "" } .null,
   .clause 1 (.rawCondition .and (.text "total > ? OR note = 'x'") [.int 5]),
   .clause 0 (.condition .and (.text "age") (.text "between") (.list [.int 18, .int 30])),
   .clause 0 (.existence false (some 1)),
   .clause 0 (.having (.text "COUNT(*) > ?") [.int 2])]

theorem statements_aligned_nested :
    (∀ call ∈ nested, ∀ s ∈ call.rawTexts, Unnumbered (chars s.toList)) ∧
    (∀ call ∈ nested, call.Sound (run nested).builders.length) ∧ (run nested).Acyclic ∧
    ∃ b st segments, (run nested).get? 0 = some b ∧ (run nested).toSql b = .ok st ∧
      Aligned nested segments st ∧
      st.sql = "SELECT users.* FROM users WHERE age BETWEEN $1 AND $2 AND EXISTS (SELECT orders.* "
        ++ "FROM orders WHERE total > $3 OR note = 'x') HAVING COUNT(*) > $4" ∧
      st.params.map Value.literal = ["18", "30", "5", "2"] := by
  have hfree : ∀ call ∈ nested, ∀ s ∈ call.rawTexts, Unnumbered (chars s.toList) := by decide
  have hlength : (run nested).builders.length = 2 := by decide
  have hsound : ∀ call ∈ nested, call.Sound (run nested).builders.length := by
    rw [hlength]
    simp [nested, Call.Sound, Clause.Sound, Value.IsText, Clause.NamesQuery]
  have hacyclic : (run nested).Acyclic := by
    have hlater : ∀ i < 2, ∀ j ∈ ((run nested).get? i).elim [] (·.clauses.embedded), i < j := by
      decide
    refine acyclic_of_later fun i j ⟨b, hget, hembeds⟩ => ?_
    have hi : i < 2 := hlength ▸ (List.getElem?_eq_some_iff.mp hget).1
    refine hlater i hi j ?_
    rw [hget]
    exact hembeds
  obtain ⟨haligned, _, htotal⟩ := statements_aligned nested hfree
  obtain ⟨b, hget⟩ : ∃ b, (run nested).get? 0 = some b := ⟨_, List.getElem?_eq_getElem (by decide)⟩
  have hstage : ((run nested).get? 0).map (·.stage) = some .configuring := by decide
  have halive : b.stage ≠ .released := by
    rw [hget] at hstage
    have hconfiguring : b.stage = .configuring := Option.some.inj hstage
    rw [hconfiguring]
    decide
  obtain ⟨st, hst⟩ := (htotal hsound hacyclic 0 b hget).1 halive
  obtain ⟨segments, hsegments⟩ := haligned 0 b st hget hst
  have hsql : ((run nested).get? 0).map (fun b => ((run nested).toSql b).toOption.map (·.sql)) =
      some (some ("SELECT users.* FROM users WHERE age BETWEEN $1 AND $2 AND EXISTS (SELECT orders.* "
        ++ "FROM orders WHERE total > $3 OR note = 'x') HAVING COUNT(*) > $4")) := by
    decide +kernel
  have hparams : ((run nested).get? 0).map
      (fun b => ((run nested).toSql b).toOption.map fun st => st.params.map Value.literal) =
      some (some ["18", "30", "5", "2"]) := by
    decide +kernel
  rw [hget, Option.map_some, hst] at hsql hparams
  exact ⟨hfree, hsound, hacyclic, b, st, segments, hget, hst, hsegments,
    Option.some.inj (Option.some.inj hsql), Option.some.inj (Option.some.inj hparams)⟩

end Shelf

end TableLoom.Query
