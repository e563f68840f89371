import Mathlib.Data.List.Forall2
import TableLoom.Proofs.Code.Names
import TableLoom.Proofs.Text.Legible

/-!
Lines of source with holes. What such a line reads follows from its fixed parts alone, however the holes
are filled: the names that it reads with empty holes, and those that are put into the holes.
-/

namespace TableLoom.Code

open Text (IsName beginsApart endsApart tokens tokens_append_begins tokens_append_ends)

theorem hollow_append (q : Quoting) (cs ds : List Char) :
    hollow q (cs ++ ds) = hollow q cs ++ hollow (cs.foldl Quoting.next q) ds := by
  induction cs generalizing q with
  | nil => rfl
  | cons c cs ih => simp [hollow, ih]

/-- No literal is open at the end of the text. -/
def Closed (s : String) : Prop :=
  s.toList.foldl Quoting.next .outside = .outside

instance (s : String) : Decidable (Closed s) :=
  inferInstanceAs (Decidable (_ = _))

theorem Closed.append {s t : String} (hs : Closed s) (ht : Closed t) : Closed (s ++ t) := by
  rw [Closed, String.toList_append, List.foldl_append, hs, ht]

/-- Without quotes a text stays as it is. -/
theorem hollow_unquoted {cs : List Char} (h : '"' ∉ cs) :
    hollow .outside cs = cs ∧ cs.foldl Quoting.next .outside = .outside := by
  induction cs with
  | nil => exact ⟨rfl, rfl⟩
  | cons c cs ih =>
      rw [List.mem_cons, not_or] at h
      have hnext : Quoting.next .outside c = .outside := if_neg (by simpa using Ne.symm h.1)
      rw [hollow, List.foldl_cons, hnext, (ih h.2).1]
      exact ⟨rfl, (ih h.2).2⟩

theorem hollow_source (cs : List Char) :
    hollow .inside (cs.flatMap Text.sourceChar) = [] ∧
      (cs.flatMap Text.sourceChar).foldl Quoting.next .inside = .inside := by
  induction cs with
  | nil => exact ⟨rfl, rfl⟩
  | cons c cs ih =>
      have hchar : hollow .inside (Text.sourceChar c) = [] ∧
          (Text.sourceChar c).foldl Quoting.next .inside = .inside := by
        unfold Text.sourceChar
        split
        · exact ⟨rfl, rfl⟩
        · next hplain =>
            simp only [Bool.or_eq_true, beq_iff_eq, not_or] at hplain
            simp [hollow, Quoting.keeps, Quoting.next, hplain]
      rw [List.flatMap_cons, hollow_append, List.foldl_append, hchar.1, hchar.2]
      exact ih

/-- A quoted text is closed, and of it two quotes are kept. -/
theorem hollow_sourceQuoted (s : String) :
    hollow .outside (Text.sourceQuoted s).toList = ['"', '"'] ∧ Closed (Text.sourceQuoted s) := by
  obtain ⟨hchars, hend⟩ := hollow_source s.toList
  have hsplit : (Text.sourceQuoted s).toList = '"' :: (s.toList.flatMap Text.sourceChar ++ ['"']) := by
    simp [Text.sourceQuoted]
  constructor
  · rw [hsplit, hollow, hollow_append]
    simp [Quoting.keeps, Quoting.next, hchars, hend, hollow]
  · rw [Closed, hsplit, List.foldl_cons, List.foldl_append]
    simp [Quoting.next, hend]

theorem beginsApart_hollow {s : String} (h : beginsApart s = true) :
    beginsApart (String.ofList (hollow .outside s.toList)) = true := by
  unfold beginsApart at h ⊢
  cases hs : s.toList with
  | nil => rw [hs] at h; cases h
  | cons c rest => rw [hs] at h; simpa [hollow, Quoting.keeps] using h

theorem endsApart_hollow {s : String} (closed : Closed s) (h : endsApart s = true) :
    endsApart (String.ofList (hollow .outside s.toList)) = true := by
  obtain ⟨c, hlast, hc⟩ := (Option.any_eq_true _ _).mp h
  obtain ⟨front, hfront⟩ := List.getLast?_eq_some_iff.mp hlast
  -- A literal that is closed by the last character is closed by a quote, which is kept.
  have hkept : (front.foldl Quoting.next .outside).keeps c = true := by
    rw [Closed, hfront, List.foldl_append] at closed
    cases hq : front.foldl Quoting.next .outside with
    | outside => rfl
    | inside =>
        rw [hq] at closed
        by_contra hother
        have hquote : (c == '"') = false := by simpa [Quoting.keeps] using hother
        have hopen : Quoting.next .inside c ≠ .outside := by
          rw [Quoting.next, hquote]
          cases c == '\\' <;> decide
        exact hopen closed
    | escaped => rw [hq] at closed; cases closed
  rw [endsApart, String.toList_ofList, hfront, hollow_append, hollow, hkept]
  simpa [hollow] using hc

theorem words_eq_tokens (s : String) :
    words s = (tokens (String.ofList (hollow .outside s.toList))).filter (· != "\n") := by
  rw [words, tokens, String.toList_ofList]

theorem words_append_begins {s t : String} (closed : Closed s) (h : beginsApart t = true) :
    words (s ++ t) = words s ++ words t := by
  rw [words_eq_tokens, String.toList_append, hollow_append, closed, String.ofList_append,
    tokens_append_begins _ (beginsApart_hollow h), List.filter_append, ← words_eq_tokens, ← words_eq_tokens]

theorem words_append_ends {s : String} (closed : Closed s) (h : endsApart s = true) (t : String) :
    words (s ++ t) = words s ++ words t := by
  rw [words_eq_tokens, String.toList_append, hollow_append, closed, String.ofList_append,
    tokens_append_ends (endsApart_hollow closed h), List.filter_append, ← words_eq_tokens, ← words_eq_tokens]

@[simp] theorem words_empty : words "" = [] := rfl

@[simp] theorem words_sourceQuoted (s : String) : words (Text.sourceQuoted s) = ["\"", "\""] := by
  rw [words, (hollow_sourceQuoted s).1]
  rfl

/-- What stands in a hole: text with names that are read, one name that is not read, or a literal. -/
inductive Hole where
  | given | hidden | literal
  deriving DecidableEq

@[simp] def Hole.text : Hole → String → String
  | literal, s => Text.sourceQuoted s
  | _, s => s

/-- Tokens that stand for what is in a hole: the mark cannot be a name, the name could be read. -/
def Hole.tokens : Hole → List String
  | given => ["?"]
  | hidden => ["hidden"]
  | literal => ["\"", "\""]

structure Template where
  first : String
  rest : List (Hole × String)

namespace Template

@[simp] def fillRest : List (Hole × String) → List String → String
  | (h, s) :: rest, a :: args => h.text a ++ (s ++ fillRest rest args)
  | _, _ => ""

/-- The line with its holes filled. -/
@[simp] def fill (T : Template) (args : List String) : String :=
  T.first ++ fillRest T.rest args

def restTokens (rest : List (Hole × String)) : List String :=
  rest.flatMap fun e => e.1.tokens ++ words e.2

def tokens (T : Template) : List String :=
  words T.first ++ restTokens T.rest

/-- The names that the line reads in its fixed parts. -/
def names (T : Template) : List String :=
  readsFrom "" T.tokens

/-- The names that the line binds in its fixed parts. -/
def bound (T : Template) : List String :=
  targets (words T.first) ++ (loopNames T.tokens).filter fun n => !List.contains ["?", "hidden"] n

/-- What stands before a hole ends apart from it. -/
def restSound : List (Hole × String) → Bool
  | [] => true
  | [(_, s)] => s == "" || beginsApart s
  | (_, s) :: rest => decide (Closed s) && beginsApart s && endsApart s && restSound rest

/-- The holes are set apart from what is around them, and hidden names are not read. -/
def sound (T : Template) : Bool :=
  decide (Closed T.first) && (T.rest.isEmpty || T.first == "" || endsApart T.first) && restSound T.rest
    && !T.names.contains "hidden"

/-- The line can stand in a hole itself: it is closed, and neither end makes a name beside it look set. -/
def whole (T : Template) : Bool :=
  T.sound && T.rest.all (fun e => decide (Closed e.2)) && !T.tokens.isEmpty
    && decide (∀ w ∈ T.tokens.head?, w ∉ [":", "="]) && decide (∀ w ∈ T.tokens.getLast?, w ≠ ":")
    && !(readsFrom ":" T.tokens).contains "hidden"

end Template

section

variable {Q : String → Prop}

/-- A text for a hole: what it reads is among these names, wherever it is put, and neither end makes a name
beside it look set. -/
structure Stands (Q : String → Prop) (s : String) : Prop where
  closed : Closed s
  nonempty : words s ≠ []
  first : ∀ w ∈ (words s).head?, w ∉ [":", "="]
  last : ∀ w ∈ (words s).getLast?, w ≠ ":"
  names : ∀ n ∈ readsFrom ":" (words s), Q n

theorem Stands.mono {P : String → Prop} {s : String} (h : Stands Q s) (sub : ∀ n, Q n → P n) : Stands P s where
  closed := h.closed
  nonempty := h.nonempty
  first := h.first
  last := h.last
  names := fun n hn => sub n (h.names n hn)

/-- A text of one token. -/
def OneWord (s : String) : Prop :=
  Closed s ∧ ∃ w, words s = [w] ∧ w ∉ [":", "="]

def Hole.Fits (Q : String → Prop) : Hole → String → Prop
  | given, s => Stands Q s
  | hidden, s => OneWord s
  | literal, _ => True

theorem Hole.Fits.closed {h : Hole} {s : String} (fits : h.Fits Q s) : Closed (h.text s) := by
  cases h with
  | given => exact Stands.closed fits
  | hidden => exact fits.1
  | literal => exact (hollow_sourceQuoted s).2

theorem Hole.Fits.mono {P : String → Prop} {h : Hole} {s : String} (fits : h.Fits Q s)
    (sub : ∀ n, Q n → P n) : h.Fits P s := by
  cases h with
  | given => exact Stands.mono fits sub
  | hidden => exact fits
  | literal => trivial

/-- Tokens with marks for holes, and the same with the holes filled. -/
inductive Filled (Q : String → Prop) : List String → List String → Prop
  | nil : Filled Q [] []
  | token (t : String) {bs ws : List String} : Filled Q bs ws → Filled Q (t :: bs) (t :: ws)
  | given {p bs ws : List String} (nonempty : p ≠ []) (first : ∀ w ∈ p.head?, w ∉ [":", "="])
      (last : ∀ w ∈ p.getLast?, w ≠ ":") (names : ∀ n ∈ readsFrom ":" p, Q n) :
      Filled Q bs ws → Filled Q ("?" :: bs) (p ++ ws)
  | hidden {w : String} {bs ws : List String} (apart : w ∉ [":", "="]) :
      Filled Q bs ws → Filled Q ("hidden" :: bs) (w :: ws)

theorem Filled.append (ts : List String) {bs ws : List String} (h : Filled Q bs ws) :
    Filled Q (ts ++ bs) (ts ++ ws) := by
  induction ts with
  | nil => exact h
  | cons t ts ih => exact .token t ih

theorem Filled.ne_nil {bs ws : List String} (h : Filled Q bs ws) (hbs : bs ≠ []) : ws ≠ [] := by
  cases h with
  | nil => exact absurd rfl hbs
  | token t _ => exact List.cons_ne_nil _ _
  | given nonempty _ _ _ _ => exact List.append_ne_nil_of_left_ne_nil nonempty _
  | hidden _ _ => exact List.cons_ne_nil _ _

/-- The token before a place hides no more than the mark that stands for it. -/
def Behind (mark before : String) : Prop :=
  (mark ∈ introducers → before ∈ introducers) ∧ (mark ≠ ":" → before ≠ ":")

theorem Behind.rfl {t : String} : Behind t t := ⟨id, id⟩

theorem Behind.of_ne {mark before : String} (h : mark ∉ introducers) (hb : before ≠ ":") :
    Behind mark before :=
  ⟨fun hmark => absurd hmark h, fun _ => hb⟩

theorem Behind.colon (before : String) : Behind ":" before :=
  ⟨fun h => absurd h (by decide), fun h => absurd (Eq.refl _) h⟩

theorem Behind.isSet {mark before : String} (behind : Behind mark before) {ts : List String}
    (h : isSet mark ts = true) : isSet before ts = true := by
  unfold Code.isSet at h
  split at h
  · rfl
  · have hmark : mark ≠ ":" := by simpa using h
    simpa [Code.isSet] using behind.2 hmark
  · cases h

theorem plain_of_isRead {before t : String} {ws : List String} (h : isRead before t ws = true) :
    IsName t ∧ isKeyword t = false := by
  simp only [Code.isRead, Bool.and_eq_true, Bool.not_eq_true', decide_eq_true_eq] at h
  exact h.1.1

theorem Behind.isRead {mark before t u : String} {bs ws : List String} (behind : Behind mark before)
    (hset : Code.isSet mark bs = true → Code.isSet mark ws = true) (plain : IsName u ∧ isKeyword u = false)
    (h : isRead before t ws = true) : isRead mark u bs = true := by
  simp only [Code.isRead, Bool.and_eq_true, Bool.not_eq_true', decide_eq_true_eq, List.contains_eq_mem,
    decide_eq_false_iff_not] at h ⊢
  exact ⟨⟨plain, fun hmark => h.1.2 (behind.1 hmark)⟩,
    Bool.eq_false_iff.mpr fun hmark => Bool.eq_false_iff.mp h.2 (behind.isSet (hset hmark))⟩

theorem Filled.isSet {before : String} {bs ws : List String} (h : Filled Q bs ws)
    (hset : isSet before bs = true) : isSet before ws = true := by
  cases h with
  | nil => cases hset
  | token t rest =>
      rename_i bs ws
      unfold Code.isSet at hset
      split at hset
      · next hbs =>
          obtain ⟨rfl, htail⟩ := List.cons.inj hbs
          have hne : bs ≠ [] := htail ▸ List.cons_ne_nil _ _
          obtain ⟨w, more, hmore⟩ := List.exists_cons_of_ne_nil (rest.ne_nil hne)
          rw [hmore]
          rfl
      · next hbs =>
          obtain ⟨rfl, -⟩ := List.cons.inj hbs
          exact hset
      · cases hset
  | given _ _ _ _ _ => simp [Code.isSet] at hset
  | hidden _ _ => simp [Code.isSet] at hset

theorem mem_readsFrom_cons {n before t : String} {rest : List String} :
    n ∈ readsFrom before (t :: rest) ↔ isRead before t rest = true ∧ n = t ∨ n ∈ readsFrom t rest := by
  rw [readsFrom]
  split
  · next h => rw [List.mem_cons, h]; simp
  · next h => simp [h]

theorem mem_readsFrom_behind {n mark before : String} {ts : List String} (behind : Behind mark before)
    (h : n ∈ readsFrom before ts) : n ∈ readsFrom mark ts := by
  cases ts with
  | nil => cases h
  | cons t rest =>
      rw [mem_readsFrom_cons] at h ⊢
      exact h.imp_left fun ⟨hread, heq⟩ => ⟨behind.isRead id (plain_of_isRead hread) hread, heq⟩

theorem Stands.reads {s : String} (h : Stands Q s) : ∀ n ∈ reads s, Q n :=
  fun n hn => h.names n (mem_readsFrom_behind (.colon "") hn)

theorem mem_of_mem_readsFrom {n before : String} {ts : List String} (h : n ∈ readsFrom before ts) :
    n ∈ ts := by
  induction ts generalizing before with
  | nil => cases h
  | cons t rest ih =>
      rcases mem_readsFrom_cons.mp h with ⟨-, rfl⟩ | h
      · exact List.mem_cons_self
      · exact List.mem_cons_of_mem t (ih h)

theorem isSet_append {before : String} {ts : List String} (h : isSet before ts = true) (ws : List String) :
    isSet before (ts ++ ws) = true := by
  unfold isSet at h
  split at h
  · rfl
  · simpa [isSet] using h
  · cases h

/-- What is read of tokens one after the other is read of the first or of those behind. -/
theorem mem_readsFrom_append {n mark before : String} {p ws : List String} (behind : Behind mark before)
    (hp : p ≠ []) (h : n ∈ readsFrom before (p ++ ws)) :
    n ∈ readsFrom mark p ∨ ∃ last ∈ p.getLast?, n ∈ readsFrom last ws := by
  induction p generalizing mark before with
  | nil => exact absurd rfl hp
  | cons t p ih =>
      rcases mem_readsFrom_cons.mp h with ⟨hread, rfl⟩ | h
      · refine .inl (mem_readsFrom_cons.mpr (.inl ⟨?_, rfl⟩))
        exact behind.isRead (fun hset => isSet_append hset ws) (plain_of_isRead hread) hread
      · cases p with
        | nil => exact .inr ⟨t, rfl, h⟩
        | cons u p =>
            rcases ih .rfl (List.cons_ne_nil u p) h with hmem | ⟨last, hlast, hn⟩
            · exact .inl (mem_readsFrom_cons.mpr (.inr hmem))
            · exact .inr ⟨last, by rwa [List.getLast?_cons_cons], hn⟩

/-- What is read with the holes filled is read with empty ones, or was put into a hole. -/
theorem Filled.reads {bs ws : List String} (h : Filled Q bs ws) {mark before : String}
    (behind : Behind mark before) (hidden : "hidden" ∉ readsFrom mark bs) :
    ∀ n ∈ readsFrom before ws, Q n ∨ n ∈ readsFrom mark bs := by
  induction h generalizing mark before with
  | nil => simp [readsFrom]
  | token t rest ih =>
      intro n hn
      rw [mem_readsFrom_cons] at hn hidden
      rw [not_or] at hidden
      rcases hn with ⟨hn, rfl⟩ | hn
      · have hread := behind.isRead rest.isSet (plain_of_isRead hn) hn
        exact .inr (mem_readsFrom_cons.mpr (.inl ⟨hread, rfl⟩))
      · exact (ih .rfl hidden.2 n hn).imp_right fun h => mem_readsFrom_cons.mpr (.inr h)
  | given nonempty first last names rest ih =>
      intro n hn
      rw [mem_readsFrom_cons, not_or] at hidden
      rcases mem_readsFrom_append (.colon before) nonempty hn with hmem | ⟨w, hw, hmem⟩
      · exact .inl (names n hmem)
      · refine (ih (.of_ne (by decide) (last w hw)) hidden.2 n hmem).imp_right fun h => ?_
        exact mem_readsFrom_cons.mpr (.inr h)
  | hidden apart rest ih =>
      intro n hn
      rw [mem_readsFrom_cons, not_or] at hidden
      rcases mem_readsFrom_cons.mp hn with ⟨hn, rfl⟩ | hn
      · exact absurd ⟨behind.isRead rest.isSet (by decide) hn, rfl⟩ hidden.1
      · refine (ih (.of_ne (by decide) (fun heq => apart (by simp [heq]))) hidden.2 n hn).imp_right ?_
        exact fun h => mem_readsFrom_cons.mpr (.inr h)

/-- A statement sets what its beginning sets. -/
theorem targets_subset_append (ts ws : List String) : targets ts ⊆ targets (ts ++ ws) := by
  fun_induction targets ts with
  | case1 n t rest => simp [targets]
  | case2 n rest => simp [targets]
  | case3 n rest hnone => exact List.nil_subset _
  | case4 n rest hsome ih =>
      obtain ⟨k, hk⟩ := List.exists_mem_of_ne_nil _ hsome
      rw [List.cons_append, List.cons_append, targets, if_neg (List.ne_nil_of_mem (ih hk))]
      exact List.cons_subset_cons n ih
  | case5 => exact List.nil_subset _

theorem mem_loopNames_cons {n t : String} {ts : List String} :
    n ∈ loopNames (t :: ts) ↔ t = "for" ∧ n ∈ ts.head? ∨ n ∈ loopNames ts := by
  cases ts with
  | nil => simp [loopNames]
  | cons u ts =>
      by_cases ht : t = "for"
      · subst ht
        simp [loopNames, eq_comm]
      · simp [loopNames, ht]

theorem loopNames_subset_append (ts ws : List String) : loopNames ws ⊆ loopNames (ts ++ ws) := by
  induction ts with
  | nil => exact List.Subset.refl _
  | cons t ts ih => exact fun n hn => mem_loopNames_cons.mpr (.inr (ih hn))

theorem Filled.eq_nil {ws : List String} (h : Filled Q [] ws) : ws = [] := by
  cases h
  rfl

/-- Loops run through the same names with the holes filled. -/
theorem Filled.loopNames {n : String} {bs ws : List String} (h : Filled Q bs ws)
    (plain : n ∉ ["?", "hidden"]) (hn : n ∈ loopNames bs) : n ∈ loopNames ws := by
  have hhead {bs ws : List String} (h : Filled Q bs ws) (hn : n ∈ bs.head?) : n ∈ ws.head? := by
    cases h with
    | nil => exact hn
    | token t _ => exact hn
    | given _ _ _ _ _ => exact absurd (by simpa using hn) (List.ne_of_not_mem_cons plain).symm
    | hidden _ _ => exact absurd (by simpa [eq_comm] using hn) (List.ne_of_not_mem_cons (List.not_mem_of_not_mem_cons plain))
  induction h with
  | nil => exact hn
  | token t rest ih =>
      exact mem_loopNames_cons.mpr ((mem_loopNames_cons.mp hn).imp (.imp_right (hhead rest)) ih)
  | given nonempty first last names rest ih =>
      have hn := (mem_loopNames_cons.mp hn).resolve_left fun h => absurd h.1 (by decide)
      exact loopNames_subset_append _ _ (ih hn)
  | hidden apart rest ih =>
      have hn := (mem_loopNames_cons.mp hn).resolve_left fun h => absurd h.1 (by decide)
      exact mem_loopNames_cons.mpr (.inr (ih hn))

theorem Filled.first {bs ws : List String} (h : Filled Q bs ws) (hbs : ∀ w ∈ bs.head?, w ∉ [":", "="]) :
    ∀ w ∈ ws.head?, w ∉ [":", "="] := by
  cases h with
  | nil => exact hbs
  | token t _ => exact hbs
  | given nonempty first _ _ _ => rwa [List.head?_append_of_ne_nil _ nonempty]
  | hidden apart _ =>
      rintro w hw
      rwa [← Option.some_inj.mp hw]

theorem Filled.last {bs ws : List String} (h : Filled Q bs ws) (hbs : ∀ w ∈ bs.getLast?, w ≠ ":") :
    ∀ w ∈ ws.getLast?, w ≠ ":" := by
  -- The last token is that of what is behind, unless nothing is.
  have hbehind {p : List String} {bs ws : List String} (rest : Filled Q bs ws)
      (hp : bs = [] → ∀ w ∈ p.getLast?, w ≠ ":") (ih : bs ≠ [] → ∀ w ∈ ws.getLast?, w ≠ ":") :
      ∀ w ∈ (p ++ ws).getLast?, w ≠ ":" := by
    by_cases hnone : bs = []
    · subst hnone
      rw [rest.eq_nil, List.append_nil]
      exact hp rfl
    · rw [List.getLast?_append_of_ne_nil _ (rest.ne_nil hnone)]
      exact ih hnone
  have htail {t : String} {bs : List String} (h : ∀ w ∈ (t :: bs).getLast?, w ≠ ":") (hne : bs ≠ []) :
      ∀ w ∈ bs.getLast?, w ≠ ":" := by
    rwa [← List.singleton_append, List.getLast?_append_of_ne_nil _ hne] at h
  induction h with
  | nil => exact hbs
  | @token t bs ws rest ih => exact hbehind rest (fun h => by rwa [h] at hbs) fun h => ih (htail hbs h)
  | given _ _ last _ rest ih => exact hbehind rest (fun _ => last) fun h => ih (htail hbs h)
  | @hidden w bs ws apart rest ih =>
      have hlast : ∀ v ∈ [w].getLast?, v ≠ ":" := by
        rintro v hv rfl
        exact apart (by simp [← Option.some_inj.mp hv])
      exact hbehind rest (fun _ => hlast) fun h => ih (htail hbs h)

theorem Hole.Fits.filled {h : Hole} {s : String} (fits : h.Fits Q s) {bs ws : List String}
    (rest : Filled Q bs ws) : Filled Q (h.tokens ++ bs) (words (h.text s) ++ ws) := by
  cases h with
  | given => exact .given (Stands.nonempty fits) fits.first fits.last fits.names rest
  | hidden =>
      obtain ⟨-, w, hw, apart⟩ := fits
      rw [Hole.text, hw]
      exact .hidden apart rest
      nofun
  | literal =>
      rw [Hole.text, words_sourceQuoted]
      exact rest.append _

namespace Template

theorem filled_rest {rest : List (Hole × String)} {args : List String} (sound : restSound rest = true)
    (fits : List.Forall₂ (fun e a => e.1.Fits Q a) rest args) :
    Filled Q (restTokens rest) (words (fillRest rest args)) := by
  induction fits with
  | nil => exact .nil
  | @cons e a rest args hfits hrest ih =>
      obtain ⟨h, s⟩ := e
      have htokens : restTokens ((h, s) :: rest) = h.tokens ++ (words s ++ restTokens rest) := by
        simp [restTokens]
      rw [htokens, fillRest]
      cases hrest with
      | nil =>
          have hwords : words (h.text a ++ (s ++ "")) = words (h.text a) ++ (words s ++ []) := by
            rw [String.append_empty, List.append_nil]
            rcases Bool.or_eq_true_iff.mp sound with hempty | hbegins
            · simp [beq_iff_eq.mp hempty]
            · exact words_append_begins hfits.closed hbegins
          rw [fillRest, hwords]
          exact hfits.filled (Filled.append _ .nil)
          nofun
      | cons hnext hmore =>
          simp only [restSound, Bool.and_eq_true, decide_eq_true_eq] at sound
          obtain ⟨⟨⟨hclosed, hbegins⟩, hends⟩, hsound⟩ := sound
          rw [words_append_begins hfits.closed (Text.beginsApart_append hbegins _),
            words_append_ends hclosed hends]
          exact hfits.filled ((ih hsound).append _)

theorem closed_fillRest {rest : List (Hole × String)} {args : List String}
    (closed : rest.all (fun e => decide (Closed e.2)) = true)
    (fits : List.Forall₂ (fun e a => e.1.Fits Q a) rest args) : Closed (fillRest rest args) := by
  induction fits with
  | nil => rfl
  | cons hfits _ ih =>
      rw [List.all_cons, Bool.and_eq_true, decide_eq_true_eq] at closed
      exact hfits.closed.append (closed.1.append (ih closed.2))

/-- The line is the template with its holes filled. -/
def Fills (T : Template) (Q : String → Prop) (line : String) : Prop :=
  ∃ args, line = T.fill args ∧ List.Forall₂ (fun e a => e.1.Fits Q a) T.rest args

theorem Fills.mono {P : String → Prop} {T : Template} {line : String} (h : T.Fills Q line)
    (sub : ∀ n, Q n → P n) : T.Fills P line := by
  obtain ⟨args, hline, fits⟩ := h
  exact ⟨args, hline, fits.imp fun _ _ hfits => hfits.mono sub⟩

theorem fills_text (s : String) : (⟨s, []⟩ : Template).Fills Q s :=
  ⟨[], by simp, .nil⟩

section

variable {T : Template} {line : String} (h : T.Fills Q line) (sound : T.sound = true)

include h sound

theorem Fills.filled : ∃ ws, words line = words T.first ++ ws ∧ Filled Q (restTokens T.rest) ws := by
  simp only [Template.sound, Bool.and_eq_true, Bool.or_eq_true, decide_eq_true_eq, beq_iff_eq] at sound
  obtain ⟨⟨⟨hclosed, hends⟩, hrest⟩, -⟩ := sound
  obtain ⟨args, rfl, fits⟩ := h
  refine ⟨_, ?_, filled_rest hrest fits⟩
  rw [fill]
  rcases hends with (hnone | hempty) | hends
  · rw [List.isEmpty_iff.mp hnone]
    simp
  · simp [hempty]
  · exact words_append_ends hclosed hends _

/-- A line reads the names of its fixed parts, and those that are put into its holes. -/
theorem Fills.reads (known : ∀ n ∈ T.names, Q n) : ∀ n ∈ Code.reads line, Q n := by
  obtain ⟨ws, hwords, hfilled⟩ := h.filled sound
  simp only [Template.sound, Bool.and_eq_true, Bool.not_eq_true', List.contains_eq_mem,
    decide_eq_false_iff_not] at sound
  intro n hn
  rw [Code.reads, hwords] at hn
  exact ((hfilled.append _).reads .rfl sound.2 n hn).elim id (known n)

theorem Fills.binds : ∀ n ∈ T.bound, n ∈ Code.binds (words line) := by
  obtain ⟨ws, hwords, hfilled⟩ := h.filled sound
  intro n hn
  rw [Code.binds, hwords]
  rcases List.mem_append.mp hn with hn | hn
  · exact List.mem_append_left _ (targets_subset_append _ _ hn)
  · obtain ⟨hn, hmark⟩ := List.mem_filter.mp hn
    exact List.mem_append_right _ ((hfilled.append _).loopNames (by simpa using hmark) hn)

omit sound in
theorem Fills.stands (whole : T.whole = true) (known : ∀ n ∈ readsFrom ":" T.tokens, Q n) :
    Stands Q line := by
  simp only [Template.whole, Bool.and_eq_true, Bool.not_eq_true', List.contains_eq_mem,
    decide_eq_false_iff_not, decide_eq_true_eq, List.isEmpty_eq_false_iff] at whole
  obtain ⟨⟨⟨⟨⟨sound, hclosed⟩, hne⟩, hfirst⟩, hlast⟩, hhidden⟩ := whole
  obtain ⟨ws, hwords, hrest⟩ := h.filled sound
  have hfilled : Filled Q T.tokens (words line) := hwords ▸ hrest.append _
  constructor
  case closed =>
    obtain ⟨args, rfl, fits⟩ := h
    simp only [Template.sound, Bool.and_eq_true, decide_eq_true_eq] at sound
    exact sound.1.1.1.append (closed_fillRest hclosed fits)
  case nonempty => exact hfilled.ne_nil hne
  case first => exact hfilled.first hfirst
  case last => exact hfilled.last hlast
  case names => exact fun n hn => (hfilled.reads .rfl hhidden n hn).elim id (known n)

omit sound in
theorem Fills.stands_plain (whole : T.whole = true) (plain : readsFrom ":" T.tokens = []) : Stands Q line :=
  h.stands whole (by simp [plain])

theorem Fills.reads_plain (plain : T.names = []) : ∀ n ∈ Code.reads line, Q n :=
  h.reads sound (by simp [plain])

end

end Template

end

end TableLoom.Code
