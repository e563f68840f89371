import Mathlib.Data.List.Forall2
import TableLoom.Proofs.Catalog.Joins

/-!
What becomes of the foreign keys that a pull reads. For each there is a relationship or a warning, in the
order in which the catalogs give the keys: first those of the table itself, then those of other tables
that lead to its column `id`.
-/

namespace TableLoom.Catalog

open Schema (Relationship)

/-- What becomes of a foreign key. -/
inductive Fate where
  | kept (relationship : Relationship)
  | skipped (warning : String)

namespace Fate

def relationship? : Fate → Option Relationship
  | kept r => some r
  | skipped _ => none

def warning? : Fate → Option String
  | kept _ => none
  | skipped w => some w

@[simp] theorem relationship?_kept (r : Relationship) : (kept r).relationship? = some r := rfl
@[simp] theorem relationship?_skipped (w : String) : (skipped w).relationship? = none := rfl
@[simp] theorem warning?_kept (r : Relationship) : (kept r).warning? = none := rfl
@[simp] theorem warning?_skipped (w : String) : (skipped w).warning? = some w := rfl

theorem relationship?_eq_some {fate : Fate} {r : Relationship} :
    fate.relationship? = some r ↔ fate = kept r := by
  cases fate <;> simp

end Fate

/-- What becomes of a key of the table itself. -/
inductive SentOut (t : Shape) (tables : List Shape) (k : ForeignKey) : Fate → Prop
  | kept (single : k.isComposite = false) (pulled : k.table ∈ tables.map (·.name)) :
    SentOut t tables k (.kept k.forward)
  | composite (many : k.isComposite = true) :
    SentOut t tables k (.skipped s!"{t.name}: composite foreign key '{k.name}' skipped")
  | elsewhere (single : k.isComposite = false) (absent : k.table ∉ tables.map (·.name)) :
    SentOut t tables k
      (.skipped s!"{t.name}: foreign key '{k.name}' targets '{k.table}', which was not pulled")

/-- A key of the table itself is skipped if it spans several columns or leads to a table that was not
pulled, and not otherwise. -/
theorem SentOut.skipped_iff {t : Shape} {tables : List Shape} {k : ForeignKey} {fate : Fate}
    (h : SentOut t tables k fate) :
    (∃ w, fate = .skipped w) ↔ k.isComposite = true ∨ k.table ∉ tables.map (·.name) := by
  cases h with
  | kept single pulled => simp [single, pulled]
  | composite many => simp [many]
  | elsewhere single absent => simp [absent]

instance (t : Shape) (tables : List Shape) (o : Shape) (k : ForeignKey) :
    Decidable (LeadsIn t tables o k) :=
  decidable_of_iff
    (o ∈ tables ∧ o.name ≠ t.name ∧ k ∈ o.foreignKeys ∧ k.table = t.name ∧ k.isComposite = false ∧
      k.target = "id" ∧ "id" ∈ t.columns.map (·.name))
    ⟨fun ⟨h₁, h₂, h₃, h₄, h₅, h₆, h₇⟩ => ⟨h₁, h₂, h₃, h₄, h₅, h₆, h₇⟩,
      fun h => ⟨h.pulled, h.other, h.own, h.here, h.single, h.target, h.column⟩⟩

/-- The keys that lead to the column `id` of a table, each with the table that holds it. -/
def incoming (t : Shape) (tables : List Shape) : List (Shape × ForeignKey) :=
  (tables.flatMap fun o => o.foreignKeys.map fun k => (o, k)).filter fun e => LeadsIn t tables e.1 e.2

theorem mem_incoming {t : Shape} {tables : List Shape} {o : Shape} {k : ForeignKey} :
    (o, k) ∈ incoming t tables ↔ LeadsIn t tables o k := by
  simp only [incoming, List.mem_filter, List.mem_flatMap, List.mem_map, Prod.mk.injEq,
    decide_eq_true_eq, and_iff_right_iff_imp]
  exact fun h => ⟨o, h.pulled, k, h.own, rfl, rfl⟩

/-- A table is reached by a relationship from the column `id`, or by a key that came earlier. -/
def Reached (own : List Relationship) (earlier : List (Shape × ForeignKey)) (table : String) : Prop :=
  (∃ r ∈ own, r.column = "id" ∧ r.references.table = table) ∨ ∃ e ∈ earlier, e.1.name = table

/-- What becomes of the keys that lead to a table: the first one of each other table is kept, unless that
table is reached by a relationship of the table itself. -/
structure SentBack (t : Shape) (own : List Relationship) (entries : List (Shape × ForeignKey))
    (fates : List Fate) : Prop where
  length : fates.length = entries.length
  kept : ∀ i o k, entries[i]? = some (o, k) → ¬ Reached own (entries.take i) o.name →
    fates[i]? = some (.kept (k.reverse o.name))
  skipped : ∀ i o k, entries[i]? = some (o, k) → Reached own (entries.take i) o.name →
    fates[i]? = some
      (.skipped s!"{t.name}: extra reverse relationship through '{o.name}.{k.column}' skipped")

namespace SentBack

variable {t : Shape} {own : List Relationship} {e : Shape × ForeignKey}
  {entries : List (Shape × ForeignKey)} {fate : Fate} {fates : List Fate}

theorem nil : SentBack t own [] [] :=
  ⟨rfl, by simp, by simp⟩

/-- What becomes of a key where no key came before it. -/
def First (t : Shape) (own : List Relationship) (e : Shape × ForeignKey) (fate : Fate) : Prop :=
  (¬ Reached own [] e.1.name ∧ fate = .kept (e.2.reverse e.1.name)) ∨
    (Reached own [] e.1.name ∧ fate =
      .skipped s!"{t.name}: extra reverse relationship through '{e.1.name}.{e.2.column}' skipped")

/-- A relationship that was made for a key reaches what the key itself counts as reaching. -/
theorem First.reached_iff (h : First t own e fate) (table : String) :
    Reached (own ++ fate.relationship?.toList) entries table ↔ Reached own (e :: entries) table := by
  obtain ⟨-, rfl⟩ | ⟨hreached, rfl⟩ := h
  · simp [Reached, ForeignKey.reverse, or_and_right, exists_or, or_assoc]
  · obtain ⟨r, hr, hcolumn, htable⟩ : ∃ r ∈ own, r.column = "id" ∧ r.references.table = e.1.name := by
      simpa [Reached] using hreached
    have hown (he : e.1.name = table) : ∃ r ∈ own, r.column = "id" ∧ r.references.table = table :=
      ⟨r, hr, hcolumn, htable.trans he⟩
    simp only [Reached, Fate.relationship?_skipped, Option.toList_none, List.append_nil, List.mem_cons,
      exists_eq_or_imp]
    exact ⟨Or.imp_right .inr, fun h => h.elim .inl fun h => h.imp_left hown⟩

theorem cons (first : First t own e fate)
    (rest : SentBack t (own ++ fate.relationship?.toList) entries fates) :
    SentBack t own (e :: entries) (fate :: fates) where
  length := by simp [rest.length]
  kept i o k he hnew := by
    cases i with
    | zero =>
      obtain rfl : e = (o, k) := by simpa using he
      obtain ⟨-, rfl⟩ | ⟨hreached, -⟩ := first
      · rfl
      · exact absurd hreached hnew
    | succ i => exact rest.kept i o k he (mt (first.reached_iff o.name).mp hnew)
  skipped i o k he hreached := by
    cases i with
    | zero =>
      obtain rfl : e = (o, k) := by simpa using he
      obtain ⟨hnew, -⟩ | ⟨-, rfl⟩ := first
      · exact absurd hreached hnew
      · rfl
    | succ i => exact rest.skipped i o k he ((first.reached_iff o.name).mpr hreached)

/-- A relationship that is kept comes from a key whose table was not reached before. -/
theorem of_kept (h : SentBack t own entries fates) {i : Nat} {r : Relationship}
    (hr : fates[i]? = some (.kept r)) :
    ∃ o k, entries[i]? = some (o, k) ∧ ¬ Reached own (entries.take i) o.name ∧ r = k.reverse o.name := by
  obtain ⟨hi, -⟩ := List.getElem?_eq_some_iff.mp hr
  obtain ⟨⟨o, k⟩, he⟩ : ∃ e, entries[i]? = some e := ⟨_, List.getElem?_eq_getElem (h.length ▸ hi)⟩
  by_cases hreached : Reached own (entries.take i) o.name
  · exact absurd (hr.symm.trans (h.skipped i o k he hreached)) (by simp)
  · refine ⟨o, k, he, hreached, ?_⟩
    simpa using hr.symm.trans (h.kept i o k he hreached)

theorem of_mem_kept (h : SentBack t own entries fates) {r : Relationship}
    (hr : r ∈ fates.filterMap Fate.relationship?) :
    r.column = "id" ∧ ∀ r' ∈ own, r'.column = "id" → r'.references.table ≠ r.references.table := by
  obtain ⟨fate, hfate, hkept⟩ := List.mem_filterMap.mp hr
  rw [Fate.relationship?_eq_some] at hkept
  obtain ⟨i, hi⟩ := List.getElem?_of_mem hfate
  obtain ⟨o, k, -, hnew, rfl⟩ := h.of_kept (hkept ▸ hi)
  exact ⟨rfl, fun r' hr' hcolumn htable => hnew (.inl ⟨r', hr', hcolumn, htable⟩)⟩

/-- The tables that are reached back are distinct. -/
theorem nodup (h : SentBack t own entries fates) :
    ((fates.filterMap Fate.relationship?).map (·.references.table)).Nodup := by
  rw [List.nodup_iff_pairwise_ne, List.pairwise_map, List.pairwise_filterMap, List.pairwise_iff_getElem]
  intro i j hi hj hij r hr r' hr' htable
  rw [Fate.relationship?_eq_some] at hr hr'
  obtain ⟨o, k, he, -, rfl⟩ := h.of_kept ((List.getElem?_eq_getElem hi).trans (congrArg some hr))
  obtain ⟨o', k', -, hnew, rfl⟩ := h.of_kept ((List.getElem?_eq_getElem hj).trans (congrArg some hr'))
  -- The earlier of two keys from one table is among those that the later one comes after.
  have hearlier : (o, k) ∈ entries.take j :=
    List.mem_of_getElem? ((List.getElem?_take_of_lt hij).trans he)
  exact hnew (.inr ⟨(o, k), hearlier, htable⟩)

end SentBack

/-- Of the keys of one table, those are taken that lead to the column `id` of another one. -/
theorem filter_leadsIn {t : Shape} {tables : List Shape} {o : Shape} (ho : o ∈ tables) :
    ((o.foreignKeys.map fun k => (o, k)).filter fun e => LeadsIn t tables e.1 e.2) =
      if o.name = t.name then [] else
        (o.foreignKeys.filter fun k => k.table == t.name && !k.isComposite &&
          firstOf k.foreignColumns == "id" && t.columns.any (·.name == "id")).map fun k => (o, k) := by
  rw [List.filter_map]
  split
  · next hname =>
    rw [List.map_eq_nil_iff, List.filter_eq_nil_iff]
    exact fun k _ hk => (of_decide_eq_true hk).other hname
  · next hname =>
    refine congrArg (List.map _) (List.filter_congr fun k hk => ?_)
    rw [Function.comp_apply, Bool.eq_iff_iff, decide_eq_true_iff]
    simp only [Bool.and_eq_true, beq_iff_eq, Bool.not_eq_true', List.any_eq_true]
    exact ⟨fun h => ⟨⟨⟨h.here, h.single⟩, h.target⟩, List.mem_map.mp h.column⟩,
      fun ⟨⟨⟨hhere, hsingle⟩, htarget⟩, hcolumn⟩ =>
        ⟨ho, hname, hk, hhere, hsingle, htarget, List.mem_map.mpr hcolumn⟩⟩

theorem inward_eq (t : Shape) (tables : List Shape) :
    inward t tables = (incoming t tables).map fun e => (e.1.name, e.2) := by
  have hpart (ts : List Shape) (hts : ∀ o ∈ ts, o ∈ tables) :
      inward t ts = ((ts.flatMap fun o => o.foreignKeys.map fun k => (o, k)).filter
        fun e => LeadsIn t tables e.1 e.2).map fun e => (e.1.name, e.2) := by
    induction ts with
    | nil => rfl
    | cons o rest ih =>
      obtain ⟨ho, hrest⟩ := List.forall_mem_cons.mp hts
      rw [List.flatMap_cons, List.filter_append, List.map_append, ← ih hrest, filter_leadsIn ho]
      by_cases hname : o.name = t.name
      · simp [inward, hname]
      · simp [inward, hname, List.filter_map, Function.comp_def]
  exact hpart tables fun _ ho => ho

/-- Adding the link of one key that leads here gives it its due. -/
theorem addInward_first (t : Shape) (acc : List Link × List String) (e : Shape × ForeignKey) :
    ∃ fate, SentBack.First t (acc.1.map Link.relationship) e fate ∧
      (addInward t acc (e.1.name, e.2)).1.map Link.relationship =
        acc.1.map Link.relationship ++ fate.relationship?.toList ∧
      (addInward t acc (e.1.name, e.2)).2 = acc.2 ++ fate.warning?.toList := by
  have hreaches : reaches acc.1 e.1.name = true ↔ Reached (acc.1.map Link.relationship) [] e.1.name := by
    rw [reaches_iff]
    simp [Reached, Link.relationship, and_comm]
  unfold addInward
  dsimp only
  split
  · next h => exact ⟨_, .inr ⟨hreaches.mp h, rfl⟩, by simp, rfl⟩
  · next h => exact ⟨_, .inl ⟨mt hreaches.mpr h, rfl⟩, by simp [Link.relationship, ForeignKey.reverse]; rfl,
      by simp⟩

theorem foldl_addInward (t : Shape) (entries : List (Shape × ForeignKey)) (acc : List Link × List String) :
    ∃ fates, SentBack t (acc.1.map Link.relationship) entries fates ∧
      ((entries.map fun e => (e.1.name, e.2)).foldl (addInward t) acc).1.map Link.relationship =
        acc.1.map Link.relationship ++ fates.filterMap Fate.relationship? ∧
      ((entries.map fun e => (e.1.name, e.2)).foldl (addInward t) acc).2 =
        acc.2 ++ fates.filterMap Fate.warning? := by
  induction entries generalizing acc with
  | nil => exact ⟨[], .nil, by simp, by simp⟩
  | cons e rest ih =>
    obtain ⟨fate, hfirst, hlinks, hwarnings⟩ := addInward_first t acc e
    obtain ⟨fates, hrest, hlinks', hwarnings'⟩ := ih (addInward t acc (e.1.name, e.2))
    rw [hlinks] at hrest hlinks'
    rw [hwarnings] at hwarnings'
    refine ⟨fate :: fates, hrest.cons hfirst, hlinks'.trans ?_, hwarnings'.trans ?_⟩
    · cases fate <;> simp [List.filterMap_cons]
    · cases fate <;> simp [List.filterMap_cons]

/-- What a fragment says of foreign keys, and what warnings say of them: one thing for each key, where
`out` are the fates of the table's own keys and `back` those of the keys that lead there. -/
structure Accounts (t : Shape) (tables : List Shape) (relationships : List Relationship)
    (warnings : List String) (out back : List Fate) : Prop where
  relationships : relationships = (out ++ back).filterMap Fate.relationship?
  warnings : warnings = (out ++ back).filterMap Fate.warning?
  sentOut : List.Forall₂ (SentOut t tables) t.foreignKeys out
  sentBack : SentBack t (out.filterMap Fate.relationship?) (incoming t tables) back
  /-- No two relationships are made for keys of one table. -/
  once : ((back.filterMap Fate.relationship?).map (·.references.table)).Nodup
  /-- They lead from the column `id`, and none leads where one of the table's own does from there. -/
  apart : ∀ r ∈ back.filterMap Fate.relationship?, r.column = "id" ∧
    ∀ r' ∈ out.filterMap Fate.relationship?, r'.column = "id" → r'.references.table ≠ r.references.table

/-- Why there is no link, if there is none. -/
def refusal? (link : Except String Link) : Option String :=
  match link with
  | .error w => some w
  | .ok _ => none

theorem links_eq (t : Shape) (tables : List Shape) :
    links t tables = (inward t tables).foldl (addInward t)
      ((t.foreignKeys.map (ownLink t (tables.map (·.name)))).filterMap Except.toOption,
        (t.foreignKeys.map (ownLink t (tables.map (·.name)))).filterMap refusal?) :=
  rfl

theorem toFragment_warnings (t : Shape) (tables : List Shape) :
    (toFragment t tables).2 = (links t tables).2 :=
  rfl

theorem ownLink_sentOut (t : Shape) (tables : List Shape) (k : ForeignKey) :
    ∃ fate, SentOut t tables k fate ∧
      (ownLink t (tables.map (·.name)) k).toOption.map Link.relationship = fate.relationship? ∧
      refusal? (ownLink t (tables.map (·.name)) k) = fate.warning? := by
  unfold ownLink
  cases hcomposite : k.isComposite
  · by_cases hknown : k.table ∈ tables.map (·.name)
    · exact ⟨_, .kept hcomposite hknown, by simp [hknown, Except.toOption]; rfl,
        by simp [hknown]; rfl⟩
    · exact ⟨_, .elsewhere hcomposite hknown, by simp [hknown]; rfl, by simp [hknown]; rfl⟩
  · exact ⟨_, .composite hcomposite, rfl, rfl⟩

theorem ownLinks_sentOut (t : Shape) (tables : List Shape) (keys : List ForeignKey) :
    ∃ fates, List.Forall₂ (SentOut t tables) keys fates ∧
      ((keys.map (ownLink t (tables.map (·.name)))).filterMap Except.toOption).map Link.relationship =
        fates.filterMap Fate.relationship? ∧
      (keys.map (ownLink t (tables.map (·.name)))).filterMap refusal? = fates.filterMap Fate.warning? := by
  induction keys with
  | nil => exact ⟨[], .nil, rfl, rfl⟩
  | cons k rest ih =>
    obtain ⟨fate, hfate, hlink, hwarning⟩ := ownLink_sentOut t tables k
    obtain ⟨fates, hfates, hlinks, hwarnings⟩ := ih
    refine ⟨fate :: fates, .cons hfate hfates, ?_, ?_⟩
    · rw [List.map_cons, List.filterMap_cons, List.filterMap_cons, ← hlink, ← hlinks]
      cases (ownLink t (tables.map (·.name)) k).toOption <;> rfl
    · rw [List.map_cons, List.filterMap_cons, List.filterMap_cons, hwarning, hwarnings]

/-- No foreign key is lost by a pull: each of the table's own and each that leads to its column `id` makes
one relationship or one warning, nothing else makes any, and no table is reached back twice. -/
theorem foreignKeys_accounted (t : Shape) (tables : List Shape) (f : Schema.Fragment)
    (made : (toFragment t tables).1 = .ok f) :
    ∃ out back, Accounts t tables f.relationships (toFragment t tables).2 out back := by
  obtain ⟨rfl, -⟩ := toFragment_eq_ok.mp made
  obtain ⟨out, hout, hown, hrefused⟩ := ownLinks_sentOut t tables t.foreignKeys
  obtain ⟨back, hback, hlinks, hwarnings⟩ := foldl_addInward t (incoming t tables)
    ((t.foreignKeys.map (ownLink t (tables.map (·.name)))).filterMap Except.toOption,
      (t.foreignKeys.map (ownLink t (tables.map (·.name)))).filterMap refusal?)
  rw [← inward_eq, ← links_eq, hown, ← List.filterMap_append] at hlinks
  rw [← inward_eq, ← links_eq, hrefused, ← List.filterMap_append] at hwarnings
  rw [hown] at hback
  exact ⟨out, back, hlinks, (toFragment_warnings t tables).trans hwarnings, hout, hback, hback.nodup,
    fun _ => hback.of_mem_kept⟩

/-- Threads, with a key to the thread that they continue, one to a table that is not pulled, and one of
two columns. -/
def threadsShape : Shape :=
  { name := "threads"
    columns := [{ name := "id", dataType := "bigint", udt := "int8" },
      { name := "parent_id", dataType := "bigint", udt := "int8" },
      { name := "author_id", dataType := "bigint", udt := "int8" }]
    primaryKey := ["id"]
    foreignKeys := [
      { name := "threads_parent", columns := ["parent_id"], table := "threads", foreignColumns := ["id"] },
      { name := "threads_author", columns := ["author_id"], table := "users", foreignColumns := ["id"] },
      { name := "threads_place", columns := ["parent_id", "author_id"], table := "replies"
        foreignColumns := ["thread_id", "author_id"] }] }

/-- Replies, which lead to threads twice. -/
def repliesShape : Shape :=
  { name := "replies"
    columns := [{ name := "thread_id", dataType := "bigint", udt := "int8" },
      { name := "origin_id", dataType := "bigint", udt := "int8" }]
    foreignKeys := [
      { name := "replies_thread", columns := ["thread_id"], table := "threads", foreignColumns := ["id"] },
      { name := "replies_origin", columns := ["origin_id"], table := "threads"
        foreignColumns := ["id"] }] }

/-- Of five keys that concern threads, two make a relationship and three a warning. -/
theorem foreignKeys_accounted_threads :
    (toFragment threadsShape [threadsShape, repliesShape]).1 =
        .ok (pulled threadsShape [threadsShape, repliesShape]) ∧
      (toFragment threadsShape [threadsShape, repliesShape]).2 =
        ["threads: foreign key 'threads_author' targets 'users', which was not pulled",
          "threads: composite foreign key 'threads_place' skipped",
          "threads: extra reverse relationship through 'replies.origin_id' skipped"] ∧
      ∃ out back, out.length = 3 ∧ back.length = 2 ∧
        Accounts threadsShape [threadsShape, repliesShape]
          (pulled threadsShape [threadsShape, repliesShape]).relationships
          (toFragment threadsShape [threadsShape, repliesShape]).2 out back := by
  refine ⟨rfl, rfl, ?_⟩
  obtain ⟨out, back, h⟩ := foreignKeys_accounted threadsShape [threadsShape, repliesShape] _ rfl
  exact ⟨out, back, h.sentOut.length_eq.symm, h.sentBack.length.trans (by decide), h⟩

end TableLoom.Catalog
