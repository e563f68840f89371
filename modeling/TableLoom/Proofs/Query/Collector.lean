import TableLoom.Proofs.Query.Alternatives
import TableLoom.Proofs.Query.Sections

/-!
Statements that are written in one go. Values are handed to a collector while the text around them is
put together, and each is answered by the placeholder that is next then. Whatever the collector holds at
first, the outcome is the statement whose placeholders are numbered from there on.
-/

namespace TableLoom.Query

/-- Text in the making, beside the values that a collector holds. -/
abbrev Writing :=
  StateT (List Value) (Except Fault)

/-- Hands a value over. -/
def hand (v : Value) : Writing String := fun held =>
  .ok (Statement.placeholder (held.length + 1), held ++ [v])

def writePhrase (embed : Nat → Writing String) : Phrase → Writing String
  | [] => return ""
  | .text s :: rest => return s ++ (← writePhrase embed rest)
  | .slot v :: rest => do
    let place ← hand v
    return place ++ (← writePhrase embed rest)
  | .query id :: rest => do
    let inner ← embed id
    return inner ++ (← writePhrase embed rest)
  | .unwritable :: _ => throw .unsupported

/-- Conditions one after the other, each but the first behind its connective. -/
def connectTexts : List (Link × String) → String
  | [] => ""
  | (_, first) :: rest =>
    rest.foldl (fun user (link, text) => user ++ " " ++ link.sql ++ " " ++ text) first

/-- The conditions of the caller behind a guard, in parentheses if an alternative is found. -/
def guardText (guard : Option String) (user : String) : Option String :=
  match guard with
  | none => if user.isEmpty then none else some user
  | some g =>
    if user.isEmpty then some g
    else if mentionsOr user then some (g ++ " AND (" ++ user ++ ")")
    else some (g ++ " AND " ++ user)

/-- Texts behind the word of their section. -/
def writeTexts (word : String) (vs : List Value) : Writing (List String) :=
  match vs.mapM Value.asText? with
  | none => throw .wrongKind
  | some [] => return []
  | some ss => return [word ++ Text.join ", " ss]

namespace Builder

def writeHead (embed : Nat → Writing String) (b : Builder) (shape : Shape) : Writing String := do
  let c := b.clauses
  match shape.projection with
  | some p => return s!"SELECT {p} FROM {b.binding.table}"
  | none =>
    if c.selects.isEmpty && !c.distinct && c.joins.isEmpty && c.includes.isEmpty then
      return b.binding.selectAll
    else
      let selects ← c.selects.mapM (writePhrase embed)
      let own := if selects.isEmpty then [s!"{b.binding.table}.*"] else selects
      let items := own ++ c.includes.map fun (r, _) => r.item
      let word := if c.distinct then "SELECT DISTINCT " else "SELECT "
      return word ++ Text.join ", " items ++ s!" FROM {b.binding.table}"

def writeIncludes (embed : Nat → Writing String) (b : Builder) (shape : Shape) :
    Writing (List String) :=
  if shape.projection.isSome then return []
  else b.clauses.includes.mapM fun (r, options) =>
    writePhrase embed (r.lateral b.binding.table options)

def writeFilter (embed : Nat → Writing String) (b : Builder) : Writing (Option String) := do
  let user ← b.clauses.conditions.mapM fun c => return (c.link, ← writePhrase embed c.phrase)
  return guardText b.guard? (connectTexts user)

def writeGrouping (embed : Nat → Writing String) (b : Builder) (shape : Shape) :
    Writing (List String) := do
  if !shape.grouping then return []
  let groups ← writeTexts "GROUP BY " b.clauses.groupBy
  if b.clauses.havings.isEmpty then return groups
  let havings ← b.clauses.havings.mapM (writePhrase embed)
  return groups ++ ["HAVING " ++ Text.join " AND " havings]

def writeOrdering (b : Builder) (shape : Shape) : Writing (List String) :=
  if shape.ordering then writeTexts "ORDER BY " b.clauses.orderBy else return []

def pagingTexts (b : Builder) (shape : Shape) : List String :=
  let limit (n : Option Int) : List String := n.toList.map fun n => s!"LIMIT {n}"
  if shape.paging then
    limit (shape.limit <|> b.clauses.limit) ++ b.clauses.offset.toList.map fun n => s!"OFFSET {n}"
  else limit shape.limit

/-- Writes the statement of a builder in one go, given how the queries that it embeds are written. -/
def render (embed : Nat → Writing String) (b : Builder) (shape : Shape) : Writing String := do
  let head ← b.writeHead embed shape
  let includes ← b.writeIncludes embed shape
  let filter ← b.writeFilter embed
  let grouping ← b.writeGrouping embed shape
  let ordering ← b.writeOrdering shape
  return Text.join " " (head :: b.clauses.joins ++ includes ++ filter.toList.map ("WHERE " ++ ·)
    ++ grouping ++ ordering ++ b.pagingTexts shape)

end Builder

/-- Writes an embedded query with the collector of the query around it. -/
def Shelf.render (s : Shelf) : Nat → Nat → Writing String
  | 0, _ => throw .endless
  | fuel + 1, id =>
    match s.get? id with
    | none => throw .unsupported
    | some b => b.render (s.render fuel) {}

/-- How a result reads once its values are numbered from somewhere on, and which these are. -/
structure Numbering (α τ : Type) where
  text : Nat → α → τ
  values : α → List Value

namespace Numbering

variable {α τ : Type}

def pieces : Numbering (List Piece) String :=
  ⟨sqlFrom, Query.values⟩

def linked : Numbering (Link × List Piece) (Link × String) :=
  ⟨fun n x => (x.1, sqlFrom n x.2), fun x => Query.values x.2⟩

def optional (N : Numbering α τ) : Numbering (Option α) (Option τ) :=
  ⟨fun n => Option.map (N.text n), fun x => x.elim [] N.values⟩

/-- Texts whose values are numbered through. -/
def through (N : Numbering α τ) (n : Nat) : List α → List τ
  | [] => []
  | a :: rest => N.text n a :: N.through (n + (N.values a).length) rest

def list (N : Numbering α τ) : Numbering (List α) (List τ) :=
  ⟨N.through, List.flatMap N.values⟩

theorem through_pieces (n : Nat) (pss : List (List Piece)) :
    pieces.through n pss = numberedFrom n pss := by
  induction pss generalizing n with
  | nil => rfl
  | cons ps rest ih => exact congrArg (sqlFrom n ps :: ·) (ih _)

theorem text_pieces (n : Nat) (ps : List Piece) : pieces.text n ps = sqlFrom n ps :=
  rfl

theorem values_pieces (ps : List Piece) : pieces.values ps = Query.values ps :=
  rfl

theorem text_list (n : Nat) (pss : List (List Piece)) : pieces.list.text n pss = numberedFrom n pss :=
  through_pieces n pss

theorem values_list (pss : List (List Piece)) : pieces.list.values pss = pss.flatMap Query.values :=
  rfl

end Numbering

/-- Written with a collector, a text takes up the numbering where the collector stands. -/
def Follows {α τ : Type} (N : Numbering α τ) (w : Writing τ) (x : Except Fault α) : Prop :=
  ∀ held, w held = x.map fun a => (N.text (held.length + 1) a, held ++ N.values a)

theorem next_place (held vs : List Value) : (held ++ vs).length + 1 = held.length + 1 + vs.length := by
  rw [List.length_append, Nat.add_right_comm]

namespace Follows

variable {α β γ ρ σ τ : Type} {N : Numbering α τ} {M : Numbering β σ} {w : Writing τ}
  {v : Writing σ} {x : Except Fault α} {y : Except Fault β} {k : τ → Writing ρ} {held : List Value}

theorem bind_ok (h : Follows N w x) {a : α} (hx : x = .ok a) :
    (w >>= k) held = k (N.text (held.length + 1) a) (held ++ N.values a) := by
  change (w held >>= fun p => k p.1 p.2) = _
  rw [h held, hx]
  rfl

theorem bind_error (h : Follows N w x) {e : Fault} (hx : x = .error e) :
    (w >>= k) held = .error e := by
  change (w held >>= fun p => k p.1 p.2) = _
  rw [h held, hx]
  rfl

theorem pure {a : α} {t : τ} (text : ∀ n, N.text n a = t) (values : N.values a = []) :
    Follows N (return t) (.ok a) := by
  intro held
  change Except.ok (t, held) = .ok (N.text (held.length + 1) a, held ++ N.values a)
  rw [text, values, List.append_nil]

theorem map (h : Follows N w x) {g : τ → σ} {f : α → β}
    (text : ∀ n a, M.text n (f a) = g (N.text n a)) (values : ∀ a, M.values (f a) = N.values a) :
    Follows M (do return g (← w)) (do return f (← x)) := by
  intro held
  cases hx : x with
  | error e => exact h.bind_error hx
  | ok a =>
      rw [h.bind_ok hx]
      change Except.ok (_, _) = .ok (M.text (held.length + 1) (f a), held ++ M.values (f a))
      rw [text, values]

/-- What is written second takes up the numbering where the first left it. -/
theorem both (h : Follows N w x) (h' : Follows M v y) {K : Numbering γ ρ} {g : τ → σ → ρ}
    {f : α → β → γ}
    (text : ∀ n a b, K.text n (f a b) = g (N.text n a) (M.text (n + (N.values a).length) b))
    (values : ∀ a b, K.values (f a b) = N.values a ++ M.values b) :
    Follows K (do let t ← w; return g t (← v)) (do let a ← x; return f a (← y)) := by
  intro held
  cases hx : x with
  | error e => exact h.bind_error hx
  | ok a =>
      rw [h.bind_ok hx]
      cases hy : y with
      | error e => exact h'.bind_error hy
      | ok b =>
          rw [h'.bind_ok hy, next_place, List.append_assoc]
          change Except.ok (_, _) = .ok (K.text (held.length + 1) (f a b), held ++ K.values (f a b))
          rw [text, values]

theorem mapM {w : γ → Writing τ} {x : γ → Except Fault α} (h : ∀ c, Follows N (w c) (x c))
    (cs : List γ) : Follows N.list (cs.mapM w) (cs.mapM x) := by
  induction cs with
  | nil => exact pure (fun _ => rfl) rfl
  | cons c cs ih =>
      rw [List.mapM_cons, List.mapM_cons]
      exact (h c).both ih (fun _ _ _ => rfl) fun _ _ => List.flatMap_cons

end Follows

variable {embed : Nat → Writing String} {write : Nat → Except Fault (List Piece)}

theorem follows_phrase (h : ∀ id, Follows .pieces (embed id) (write id)) (p : Phrase) :
    Follows .pieces (writePhrase embed p) (expand write p) := by
  induction p with
  | nil => exact .pure (fun _ => rfl) rfl
  | cons part p ih =>
      cases part with
      | text s => exact ih.map (fun _ _ => rfl) fun _ => rfl
      | slot v =>
          have hslot : Follows ⟨fun n _ => Statement.placeholder n, fun v => [v]⟩ (hand v) (.ok v) :=
            fun _ => rfl
          exact hslot.both (K := .pieces) (f := fun v ps => .slot v :: ps) ih (fun _ _ _ => rfl)
            fun _ _ => rfl
      | query id =>
          exact (h id).both ih (fun n qs ps => sqlFrom_append n qs ps) fun qs ps => values_append qs ps
      | unwritable => exact fun _ => rfl

theorem follows_texts (word : String) (vs : List Value) :
    Follows Numbering.pieces.list (writeTexts word vs) (Builder.texts word vs) := by
  unfold writeTexts Builder.texts
  cases vs.mapM Value.asText? with
  | none => exact fun _ => rfl
  | some ss =>
      cases ss with
      | nil => exact .pure (fun _ => rfl) rfl
      | cons s ss =>
          refine .pure (fun n => ?_) rfl
          exact congrArg ([·]) String.append_empty

theorem foldl_connected (n : Nat) (acc : String) (rest : List (Link × List Piece)) :
    (Numbering.linked.through n rest).foldl
        (fun user (link, text) => user ++ " " ++ link.sql ++ " " ++ text) acc =
      acc ++ sqlFrom n (rest.flatMap fun (link, ps) => .text s!" {link.sql} " :: ps) := by
  induction rest generalizing n acc with
  | nil => exact (String.append_empty).symm
  | cons x rest ih =>
      rw [Numbering.through, List.foldl_cons, ih, List.flatMap_cons, sqlFrom_append, sqlFrom, values]
      change acc ++ " " ++ x.1.sql ++ " " ++ sqlFrom n x.2 ++ _ = acc ++ (" " ++ x.1.sql ++ " " ++ _ ++ _)
      simp only [String.append_assoc]
      rfl

theorem connectTexts_through (n : Nat) (user : List (Link × List Piece)) :
    connectTexts (Numbering.linked.through n user) = sqlFrom n (Builder.connect user) := by
  cases user with
  | nil => rfl
  | cons x rest =>
      rw [Builder.connect, sqlFrom_append]
      exact foldl_connected _ _ rest

theorem values_connect (user : List (Link × List Piece)) :
    values (Builder.connect user) = user.flatMap fun x => values x.2 := by
  cases user with
  | nil => rfl
  | cons x rest =>
      rw [Builder.connect, values_append, List.flatMap_cons]
      refine congrArg (values x.2 ++ ·) ?_
      induction rest with
      | nil => rfl
      | cons y rest ih => rw [List.flatMap_cons, List.flatMap_cons, values_append, values, ih]

theorem placeholder_ne_empty (n : Nat) (s : String) : Statement.placeholder n ++ s ≠ "" := by
  intro h
  have hchars := congrArg String.toList h
  rw [String.toList_append, toList_placeholder] at hchars
  cases hchars

theorem isEmpty_sqlFrom (n : Nat) (ps : List Piece) : (sqlFrom n ps).isEmpty = isBlank ps := by
  induction ps with
  | nil => rfl
  | cons p ps ih =>
      cases p with
      | text s =>
          rw [isBlank, ← ih, sqlFrom, Bool.eq_iff_iff]
          simp [String.append_eq_empty_iff]
      | slot v =>
          rw [isBlank, sqlFrom, Bool.eq_false_iff]
          simpa using placeholder_ne_empty n _

theorem values_of_isBlank {ps : List Piece} (h : isBlank ps = true) : values ps = [] := by
  induction ps with
  | nil => rfl
  | cons p ps ih =>
      cases p with
      | text s =>
          rw [isBlank, Bool.and_eq_true] at h
          exact ih h.2
      | slot v => cases h

theorem mentionsOr_sqlFrom (n m : Nat) (ps : List Piece) :
    mentionsOr (sqlFrom n ps) = mentionsOr (sqlFrom m ps) := by
  rw [mentionsOr, mentionsOr, toList_sqlFrom, toList_sqlFrom]
  exact mentionsOrFrom_numbered false n m (marks ps)

/-- The guard asks the same of numbered text as of pieces, wherever the numbers begin. -/
theorem guardText_sqlFrom (guard : Option String) (n : Nat) (user : List Piece) :
    guardText guard (sqlFrom n user) = (Builder.guarded guard user).map (sqlFrom n) := by
  unfold guardText Builder.guarded
  rw [isEmpty_sqlFrom, mentionsOr_sqlFrom n 1]
  cases guard with
  | none => cases isBlank user <;> rfl
  | some g =>
      cases isBlank user with
      | true => exact congrArg some String.append_empty.symm
      | false =>
          cases mentionsOr (sqlFrom 1 user) with
          | true =>
              refine congrArg some ?_
              change _ = sqlFrom n ([.text _] ++ user ++ [.text ")"])
              simp [sqlFrom_append, sqlFrom, String.append_assoc]
          | false => rfl

theorem values_guarded (guard : Option String) (user : List Piece) :
    (Builder.guarded guard user).elim [] values = values user := by
  unfold Builder.guarded
  cases guard with
  | none =>
      cases h : isBlank user with
      | true => exact (values_of_isBlank h).symm
      | false => rfl
  | some g =>
      cases h : isBlank user with
      | true => exact (values_of_isBlank h).symm
      | false =>
          cases mentionsOr (sqlFrom 1 user) with
          | true =>
              change values (user ++ [.text ")"]) = _
              rw [values_append]
              exact List.append_nil _
          | false => rfl

/-- A projection reads the same put together from texts as numbered through. -/
theorem sqlFrom_projection (n : Nat) (word own last : String) (selects : List (List Piece))
    (items : List String) :
    sqlFrom n (.text word :: joined [.text ", "] ((if selects.isEmpty then [[.text own]] else selects)
        ++ items.map fun s => [.text s]) ++ [.text last]) =
      word ++ Text.join ", " ((if (numberedFrom n selects).isEmpty then [own]
        else numberedFrom n selects) ++ items) ++ last := by
  have hitems : numberedFrom n ((if selects.isEmpty then [[.text own]] else selects)
      ++ items.map fun s => [.text s]) =
        (if (numberedFrom n selects).isEmpty then [own] else numberedFrom n selects) ++ items := by
    rw [numberedFrom_append, numberedFrom_texts]
    cases selects with
    | nil => exact congrArg (· :: items) String.append_empty
    | cons ps rest => rfl
  rw [sqlFrom_append, sqlFrom, sqlFrom_joined, hitems, sqlFrom, sqlFrom, String.append_empty]

theorem values_projection (word own last : String) (selects : List (List Piece))
    (items : List String) :
    values (.text word :: joined [.text ", "] ((if selects.isEmpty then [[.text own]] else selects)
      ++ items.map fun s => [.text s]) ++ [.text last]) = selects.flatMap values := by
  rw [values_append, values, values_joined, List.flatMap_append, flatMap_values_texts]
  cases selects with
  | nil => rfl
  | cons ps rest => simp [values]

namespace Builder

variable (h : ∀ id, Follows .pieces (embed id) (write id)) (b : Builder) (shape : Shape)

include h

theorem follows_filter :
    Follows Numbering.pieces.optional (b.writeFilter embed) (b.conditions write) := by
  have hone : ∀ c : Condition, Follows .linked (do return (c.link, ← writePhrase embed c.phrase))
      (do return (c.link, ← expand write c.phrase)) := fun c =>
    (follows_phrase h c.phrase).map (g := (c.link, ·)) (f := (c.link, ·)) (fun _ _ => rfl)
      fun _ => rfl
  refine (Follows.mapM hone b.clauses.conditions).map
    (g := fun user => guardText b.guard? (connectTexts user))
    (f := fun user => guarded b.guard? (connect user)) (fun n user => ?_) fun user => ?_
  · change (guarded b.guard? (connect user)).map (sqlFrom n) =
      guardText b.guard? (connectTexts (Numbering.linked.through n user))
    rw [connectTexts_through, guardText_sqlFrom]
  · change (guarded b.guard? (connect user)).elim [] values = user.flatMap fun x => values x.2
    rw [values_guarded, values_connect]

theorem follows_includes :
    Follows Numbering.pieces.list (b.writeIncludes embed shape) (b.includes write shape) := by
  unfold writeIncludes includes
  cases shape.projection with
  | some p => exact .pure (fun _ => rfl) rfl
  | none =>
      exact .mapM (fun x : Relation × IncludeOptions =>
        follows_phrase h (x.1.lateral b.binding.table x.2)) b.clauses.includes

theorem follows_head : Follows .pieces (b.writeHead embed shape) (b.head write shape) := by
  unfold writeHead head
  simp only
  cases shape.projection with
  | some p => exact .pure (fun _ => String.append_empty) rfl
  | none =>
      simp only
      split
      · exact .pure (fun _ => String.append_empty) rfl
      · have hitems : b.clauses.includes.map (fun x => [Piece.text x.1.item]) =
            (b.clauses.includes.map fun x => x.1.item).map fun s => [.text s] := by
          rw [List.map_map]
          rfl
        rw [hitems]
        let word := if b.clauses.distinct then "SELECT DISTINCT " else "SELECT "
        let own := s!"{b.binding.table}.*"
        let last := s!" FROM {b.binding.table}"
        let items := b.clauses.includes.map fun x => x.1.item
        have hvalues := fun selects => values_projection word own last selects items
        refine (Follows.mapM (follows_phrase h) b.clauses.selects).map (M := .pieces)
          (g := fun selects =>
            word ++ Text.join ", " ((if selects.isEmpty then [own] else selects) ++ items) ++ last)
          (f := fun selects =>
            Piece.text word :: joined [Piece.text ", "]
              ((if selects.isEmpty then [[Piece.text own]] else selects)
                ++ items.map fun s => [Piece.text s]) ++ [Piece.text last])
          (fun n selects => ?_) hvalues
        change sqlFrom n _ = word ++ Text.join ", " ((if (Numbering.pieces.through n selects).isEmpty
          then [own] else Numbering.pieces.through n selects) ++ items) ++ last
        rw [Numbering.through_pieces]
        exact sqlFrom_projection n word own last selects items

theorem follows_grouping :
    Follows Numbering.pieces.list (b.writeGrouping embed shape) (b.grouping write shape) := by
  unfold writeGrouping grouping
  cases shape.grouping with
  | false => exact .pure (fun _ => rfl) rfl
  | true =>
      have hgroups := follows_texts "GROUP BY " b.clauses.groupBy
      by_cases hnone : b.clauses.havings.isEmpty = true
      · simp only [hnone, Bool.not_true, Bool.false_eq_true, ↓reduceIte, bind_pure]
        exact hgroups
      · simp only [hnone, Bool.not_true, Bool.false_eq_true, ↓reduceIte]
        refine hgroups.both (Follows.mapM (follows_phrase h) b.clauses.havings)
          (g := fun groups havings => groups ++ ["HAVING " ++ Text.join " AND " havings])
          (f := fun groups havings => groups ++ [.text "HAVING " :: joined [.text " AND "] havings])
          (fun n groups havings => ?_) fun groups havings => ?_
        · change Numbering.pieces.through n _ = Numbering.pieces.through n groups ++
            ["HAVING " ++ Text.join " AND " (Numbering.pieces.through _ havings)]
          rw [Numbering.through_pieces, Numbering.through_pieces, Numbering.through_pieces,
            numberedFrom_append, numberedFrom, numberedFrom, sqlFrom, sqlFrom_joined]
          rfl
        · change List.flatMap values _ = groups.flatMap values ++ havings.flatMap values
          rw [List.flatMap_append, List.flatMap_cons, List.flatMap_nil, List.append_nil, values,
            values_joined]

omit h in
theorem follows_ordering :
    Follows Numbering.pieces.list (b.writeOrdering shape) (b.ordering shape) := by
  unfold writeOrdering ordering
  cases shape.ordering with
  | false => exact .pure (fun _ => rfl) rfl
  | true => exact follows_texts "ORDER BY " b.clauses.orderBy

omit h in
theorem paging_texts : b.paging shape = (b.pagingTexts shape).map fun s => [.text s] := by
  unfold paging pagingTexts
  cases shape.paging with
  | false => simp only [Bool.false_eq_true, ↓reduceIte, List.map_map]; rfl
  | true => simp only [↓reduceIte, List.map_append, List.map_map]; rfl

/-- A statement that is written in one go is the one that is written first and numbered then. -/
theorem follows_render : Follows .pieces (b.render embed shape) (b.pieces write shape) := by
  intro held
  unfold render pieces sections
  cases hhead : b.head write shape with
  | error e => exact (follows_head h b shape).bind_error hhead
  | ok head =>
  rw [(follows_head h b shape).bind_ok hhead]
  cases hincludes : b.includes write shape with
  | error e => exact (follows_includes h b shape).bind_error hincludes
  | ok includes =>
  rw [(follows_includes h b shape).bind_ok hincludes]
  cases hfilter : b.conditions write with
  | error e => exact (follows_filter h b).bind_error hfilter
  | ok filter =>
  rw [(follows_filter h b).bind_ok hfilter]
  cases hgroups : b.grouping write shape with
  | error e => exact (follows_grouping h b shape).bind_error hgroups
  | ok groups =>
  rw [(follows_grouping h b shape).bind_ok hgroups]
  cases horder : b.ordering shape with
  | error e => exact (follows_ordering b shape).bind_error horder
  | ok order =>
  rw [(follows_ordering b shape).bind_ok horder]
  have hwhere : ∀ n, (Numbering.pieces.optional.text n filter).toList.map ("WHERE " ++ ·) =
      numberedFrom n (filter.toList.map (Piece.text "WHERE " :: ·)) := by
    cases filter <;> exact fun _ => rfl
  have hvalues : (filter.toList.map (Piece.text "WHERE " :: ·)).flatMap values =
      Numbering.pieces.optional.values filter := by
    cases filter with
    | none => rfl
    | some ps => exact List.append_nil _
  change Except.ok (_, _) = .ok (sqlFrom _ (joined [.text " "] _), held ++ values (joined [.text " "] _))
  rw [sqlFrom_joined, values_joined, paging_texts, hwhere]
  simp only [Numbering.text_pieces, Numbering.values_pieces, Numbering.text_list,
    Numbering.values_list, next_place]
  simp only [numberedFrom_append, numberedFrom, numberedFrom_texts, List.flatMap_append,
    List.flatMap_cons, flatMap_values_texts, hvalues, List.append_nil,
    Nat.add_assoc, List.append_assoc]

end Builder

namespace Shelf

/-- At every depth, an embedded query is written with the collector of the query around it as it is
written on its own, but for the numbers. -/
theorem follows_render (s : Shelf) (fuel id : Nat) :
    Follows .pieces (s.render fuel id) (s.write fuel id) := by
  induction fuel generalizing id with
  | zero => exact fun _ => rfl
  | succ fuel ih =>
      rw [render, write]
      cases s.get? id with
      | none => exact fun _ => rfl
      | some b => exact Builder.follows_render ih b {}

end Shelf

end TableLoom.Query
