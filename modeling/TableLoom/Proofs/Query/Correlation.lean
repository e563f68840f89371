import TableLoom.Proofs.Query.Items
import TableLoom.Proofs.Query.Scopes
import TableLoom.Proofs.Query.Terminals

/-!
Which row the related rows are tied to. A relation is loaded by a lateral query that compares a column of
the related table with one of the bound table, which it names from within. Between the two stand the
names that the query gives to its own sources.
-/

namespace TableLoom.Query

/-- A name in small letters. -/
def lowered (name : String) : String :=
  String.ofList (name.toList.map Char.toLower)

namespace Relation

/-- What the name of a relation is continued by, where sources are named after it. -/
def suffixes : List String := ["_rel", "_row", "_include"]

/-- The names of sources that a relation brings along. -/
def aliases (r : Relation) : List String :=
  suffixes.map (r.name ++ ·)

theorem aliases_eq (r : Relation) : r.aliases = [r.innerAlias, r.rowAlias, r.joinAlias] :=
  rfl

theorem getLast?_suffix {name suffix : String} (h : suffix ∈ suffixes) :
    (name ++ suffix).toList.getLast? = suffix.toList.getLast? := by
  have hsome : ∀ s ∈ suffixes, s.toList.getLast?.isSome = true := by decide
  rw [String.toList_append, List.getLast?_append, Option.or_of_isSome (hsome suffix h)]

theorem asRead_append {name suffix : String} (h : suffix ∈ suffixes) :
    asRead (name ++ suffix) = lowered name ++ suffix := by
  have hplain : ∀ s ∈ suffixes, s.toList.getLast? ≠ some '\n' ∧ s.toList.map Char.toLower = s.toList := by
    decide
  obtain ⟨hline, hsmall⟩ := hplain suffix h
  rw [← getLast?_suffix h] at hline
  rw [asRead, Text.dropLineEnd, if_neg (by simpa using hline), String.toList_append, List.map_append, hsmall,
    String.ofList_append, String.ofList_toList, lowered]

/-- Two relations have an alias in common exactly if their names differ in their letters' case alone. -/
theorem share_alias_iff (r q : Relation) :
    (∃ a ∈ r.aliases, ∃ c ∈ q.aliases, asRead a = asRead c) ↔ lowered r.name = lowered q.name := by
  simp only [aliases, List.mem_map, exists_exists_and_eq_and]
  constructor
  · rintro ⟨s, hs, t, ht, heq⟩
    rw [asRead_append hs, asRead_append ht] at heq
    -- The last letter tells which suffix it is.
    have hlast : ∀ s ∈ suffixes, ∀ t ∈ suffixes, s.toList.getLast? = t.toList.getLast? → s = t := by decide
    have hst : s = t := by
      refine hlast s hs t ht ?_
      rw [← getLast?_suffix hs, heq, getLast?_suffix ht]
    subst hst
    exact (String.append_left_inj s).mp heq
  · intro hname
    refine ⟨"_rel", by decide, "_rel", by decide, ?_⟩
    rw [asRead_append (by decide), asRead_append (by decide), hname]

/-- The column of the related table. -/
def near (r : Relation) : ColumnRef :=
  ⟨r.innerAlias, r.foreignColumn⟩

/-- The column of the bound table, as it is named inside. -/
def far (r : Relation) (table : String) : ColumnRef :=
  ⟨table, r.localColumn⟩

/-- What narrows the related rows, behind the equation. -/
def narrowing (r : Relation) (table : String) (options : IncludeOptions) : Phrase :=
  (r.rows table options).tail

/-- The source that a relation is loaded from. -/
def source (r : Relation) (table : String) (narrowed : List Piece) : Source :=
  .query true r.gathered
    (.query false s!"SELECT {r.innerAlias}.*" (.table r.table (some r.innerAlias))
      (some (r.near, r.far table)) narrowed r.rowAlias)
    none [] r.joinAlias

def joined (r : Relation) (table : String) (narrowed : List Piece) : Joined :=
  ⟨"LEFT JOIN", r.source table narrowed, "TRUE"⟩

theorem link_eq {r : Relation} {table : String} (plain : '.' ∉ r.localColumn.toList) :
    r.link table = r.near.sql ++ " = " ++ (r.far table).sql := by
  have hnone : ¬ r.localColumn.toList.contains '.' = true := by simpa using plain
  change r.innerAlias ++ "." ++ r.foreignColumn ++ " = " ++ Naming.qualify table r.localColumn = _
  rw [Naming.qualify, if_neg hnone]
  rfl

theorem marks_lateral {r : Relation} {table : String} {options : IncludeOptions}
    (plain : '.' ∉ r.localColumn.toList) {write : Nat → Except Fault (List Piece)} {ps : List Piece}
    (h : expand write (r.lateral table options) = .ok ps) :
    ∃ narrowed, expand write (r.narrowing table options) = .ok narrowed ∧
      marks (.text " " :: ps) = marks (r.joined table narrowed).pieces := by
  unfold lateral at h
  obtain ⟨as, bs, has, hbs, rfl⟩ := expand_append h
  obtain ⟨rows, hrows, rfl⟩ := expand_text has
  obtain ⟨none_, hnone, rfl⟩ := expand_text hbs
  obtain rfl := Except.ok.inj hnone
  obtain ⟨narrowed, hnarrowed, rfl⟩ := expand_text hrows
  refine ⟨narrowed, hnarrowed, ?_⟩
  rw [link_eq plain]
  change marks (.text " " :: .text ("LEFT JOIN LATERAL (" ++ r.gathered ++ " FROM (")
    :: .text ("SELECT " ++ r.innerAlias ++ ".* FROM " ++ r.table ++ " AS " ++ r.innerAlias ++ " WHERE "
      ++ (r.near.sql ++ " = " ++ (r.far table).sql)) :: narrowed
    ++ [.text (") AS " ++ r.rowAlias ++ ") AS " ++ r.joinAlias ++ " ON TRUE")]) =
    marks (.text " LEFT JOIN " :: (.text ("LATERAL (" ++ r.gathered ++ " FROM ")
      :: (.text ("(" ++ ("SELECT " ++ r.innerAlias ++ ".*") ++ " FROM ")
        :: [.text (r.table ++ " AS " ++ r.innerAlias)]
        ++ [.text (" WHERE " ++ r.near.sql ++ " = " ++ (r.far table).sql)] ++ narrowed
        ++ [.text (") AS " ++ r.rowAlias)])
      ++ [] ++ [] ++ [.text (") AS " ++ r.joinAlias)]) ++ [.text " ON TRUE"])
  simp

/-- No alias is the name of a table that ends in none of the suffixes. -/
theorem alias_ne {table : String} (h : ∀ s ∈ suffixes, ¬ s.toList <:+ (asRead table).toList) (r : Relation) :
    ∀ a ∈ r.aliases, asRead a ≠ asRead table := by
  intro a ha htable
  obtain ⟨s, hs, rfl⟩ := List.mem_map.mp ha
  refine h s hs ?_
  rw [← htable, asRead_append hs, String.toList_append]
  exact List.suffix_append _ _

end Relation

/-- A text that joins a table. -/
def Joined.WrittenAs (j : Joined) (text : String) : Prop :=
  ∃ table, j.source = .table table none ∧ text = j.kind ++ " " ++ table ++ " ON " ++ j.condition

theorem comparedIn_append (left : List String) (js ks : List Joined) :
    From.comparedIn left (js ++ ks) =
      From.comparedIn left js ++ From.comparedIn (left ++ js.map (·.source.label)) ks := by
  induction js generalizing left with
  | nil => simp [From.comparedIn]
  | cons j rest ih => simp [From.comparedIn, ih]

/-- Nothing is compared inside a table. -/
theorem comparedIn_tables {left : List String} {js : List Joined} {texts : List String}
    (tables : List.Forall₂ Joined.WrittenAs js texts) : From.comparedIn left js = [] := by
  induction tables generalizing left with
  | nil => rfl
  | cons hfirst _ ih =>
    obtain ⟨table, hsource, -⟩ := hfirst
    rw [From.comparedIn, ih, hsource]
    rfl

/-- What the columns of an equation see: the alias of the related table, and further out the bound table,
what is joined to it and what was included before. -/
def scopeOf (r : Relation) (table : String) (others : List String) : Scope :=
  [[r.innerAlias], table :: others]

/-- The column of the bound table is one of the outer row: its name stands for the bound table. -/
def Relation.Correlated (r : Relation) (table : String) (others : List String) : Prop :=
  Resolves (r.far table).source (scopeOf r table others) 1 0

/-- The column of the bound table is taken for one of the related table itself. -/
def Relation.Captured (r : Relation) (table : String) (others : List String) : Prop :=
  Resolves (r.far table).source (scopeOf r table others) 0 0

theorem Relation.correlated_iff {r : Relation} {table : String} {others : List String} :
    r.Correlated table others ↔
      asRead r.innerAlias ≠ asRead table ∧ ∀ other ∈ others, asRead other ≠ asRead table :=
  Resolves.leftmost_iff

theorem Relation.captured_iff {r : Relation} {table : String} {others : List String} :
    r.Captured table others ↔ asRead r.innerAlias = asRead table :=
  Resolves.first_iff

theorem compared_source (r : Relation) (table : String) (narrowed : List Piece) (others : List String) :
    (r.source table narrowed).compared (table :: others) [] =
      [(r.near, scopeOf r table others), (r.far table, scopeOf r table others)] :=
  rfl

theorem mem_comparedIn {table : String} {narrowed : Relation × IncludeOptions → List Piece}
    {xs : List (Relation × IncludeOptions)} {others : List String} {c : ColumnRef} {scope : Scope} :
    (c, scope) ∈ From.comparedIn (table :: others) (xs.map fun x => x.1.joined table (narrowed x)) ↔
      ∃ i x, xs[i]? = some x ∧ (c = x.1.near ∨ c = x.1.far table) ∧
        scope = scopeOf x.1 table (others ++ (xs.take i).map (·.1.joinAlias)) := by
  induction xs generalizing others with
  | nil => simp [From.comparedIn]
  | cons x rest ih =>
    have hhead : (c, scope) ∈ (x.1.source table (narrowed x)).compared (table :: others) [] ↔
        (c = x.1.near ∨ c = x.1.far table) ∧ scope = scopeOf x.1 table others := by
      rw [compared_source, List.mem_pair, Prod.mk.injEq, Prod.mk.injEq, or_and_right]
    have htail (i : Nat) : others ++ ((x :: rest).take (i + 1)).map (·.1.joinAlias) =
        others ++ [x.1.joinAlias] ++ (rest.take i).map (·.1.joinAlias) := by
      simp
    rw [List.map_cons, From.comparedIn, List.mem_append]
    change (c, scope) ∈ (x.1.source table (narrowed x)).compared (table :: others) [] ∨
      (c, scope) ∈ From.comparedIn (table :: (others ++ [x.1.joinAlias])) _ ↔ _
    rw [hhead, ih]
    constructor
    · rintro (⟨hc, hscope⟩ | ⟨i, y, hy, hc, hscope⟩)
      · exact ⟨0, x, rfl, hc, by simpa using hscope⟩
      · exact ⟨i + 1, y, hy, hc, by rw [htail, hscope]⟩
    · rintro ⟨i, y, hy, hc, hscope⟩
      cases i with
      | zero =>
        obtain rfl := Option.some.inj hy
        exact .inl ⟨hc, by simpa using hscope⟩
      | succ i => exact .inr ⟨i, y, hy, hc, by rw [hscope, htail]⟩

theorem marks_joined (ps : List Piece) (rest : List (List Piece)) :
    marks (joined [.text " "] (ps :: rest)) = marks ps ++ marks (rest.flatMap (.text " " :: ·)) := by
  induction rest generalizing ps with
  | nil => simp [joined]
  | cons qs rest ih =>
    rw [joined_cons, marks_append, ih]
    simp

theorem marks_flatMap_paired {α : Type} {f : α → List Piece} {as : List α} {pss : List (List Piece)}
    (h : List.Forall₂ (fun a ps => marks (.text " " :: ps) = marks (f a)) as pss) :
    marks (pss.flatMap (.text " " :: ·)) = marks (as.flatMap f) := by
  induction h with
  | nil => rfl
  | cons hfirst _ ih => rw [List.flatMap_cons, List.flatMap_cons, marks_append, marks_append, hfirst, ih]

theorem Joined.WrittenAs.marks_eq {j : Joined} {text : String} (h : j.WrittenAs text) :
    marks [.text " ", .text text] = marks j.pieces := by
  obtain ⟨table, hsource, rfl⟩ := h
  simp [Joined.pieces, hsource, Source.pieces]

/-- What is taken for a join joins a table. -/
theorem readJoin_writtenAs {table left right kind : Value} {text : String}
    (h : readJoin table left right kind = .ok text) : ∃ j : Joined, j.WrittenAs text := by
  obtain ⟨kind, -, h⟩ := bind_ok h
  obtain ⟨table, -, h⟩ := bind_ok h
  obtain ⟨left, -, h⟩ := bind_ok h
  obtain ⟨right, -, h⟩ := bind_ok h
  obtain rfl := Except.ok.inj h
  refine ⟨⟨kind.sql, .table table none, left ++ " = " ++ right⟩, table, rfl, ?_⟩
  change kind.sql ++ " " ++ table ++ " ON " ++ left ++ " = " ++ right = _
  simp only [String.append_assoc]

theorem exists_writtenAs {texts : List String}
    (h : ∀ text ∈ texts, ∃ table left right kind, readJoin table left right kind = .ok text) :
    ∃ joins : List Joined, List.Forall₂ Joined.WrittenAs joins texts := by
  induction texts with
  | nil => exact ⟨[], .nil⟩
  | cons text rest ih =>
    obtain ⟨⟨_, _, _, _, htext⟩, hrest⟩ := List.forall_mem_cons.mp h
    obtain ⟨j, hj⟩ := readJoin_writtenAs htext
    obtain ⟨joins, hjoins⟩ := ih hrest
    exact ⟨j :: joins, .cons hj hjoins⟩

namespace Builder

variable {b : Builder} {write : Nat → Except Fault (List Piece)}

/-- Behind the projection of a statement that includes relations stands the bound table. -/
theorem head_from {shape : Shape} (plain : shape.projection = none) (includes : b.clauses.includes ≠ [])
    {ps : List Piece} (h : b.head write shape = .ok ps) :
    ∃ front, ps = front ++ [.text (" FROM " ++ b.binding.table)] := by
  have hlong : ¬ (b.clauses.selects.isEmpty && !b.clauses.distinct && b.clauses.joins.isEmpty
      && b.clauses.includes.isEmpty) = true := by
    simp [includes]
  unfold head at h
  simp only [plain] at h
  rw [if_neg hlong] at h
  obtain ⟨selects, -, heq⟩ := bind_ok h
  exact ⟨_, (Except.ok.inj heq).symm⟩

/-- The joins that load relations join their sources. -/
theorem includes_joined (plain : ∀ x ∈ b.clauses.includes, '.' ∉ x.1.localColumn.toList)
    {pss : List (List Piece)} (h : b.includes write {} = .ok pss) :
    ∃ narrowed : Relation × IncludeOptions → List Piece,
      (∀ x ∈ b.clauses.includes, expand write (x.1.narrowing b.binding.table x.2) = .ok (narrowed x)) ∧
      marks (pss.flatMap (.text " " :: ·)) =
        marks ((b.clauses.includes.map fun x => x.1.joined b.binding.table (narrowed x)).flatMap
          Joined.pieces) := by
  let narrowed (x : Relation × IncludeOptions) : List Piece :=
    (expand write (x.1.narrowing b.binding.table x.2)).toOption.getD []
  have hpaired : List.Forall₂ (fun x ps =>
      expand write (x.1.narrowing b.binding.table x.2) = .ok (narrowed x) ∧
      marks (.text " " :: ps) = marks (x.1.joined b.binding.table (narrowed x)).pieces)
      b.clauses.includes pss := by
    refine ((List.forall₂_and_left _ _).mpr ⟨plain, mapM_eq_ok.mp h⟩).imp fun x ps ⟨hx, hps⟩ => ?_
    obtain ⟨ns, hns, hmarks⟩ := Relation.marks_lateral hx hps
    have hnarrowed : narrowed x = ns := by
      simp only [narrowed, hns]
      rfl
    rw [hnarrowed]
    exact ⟨hns, hmarks⟩
  refine ⟨narrowed, fun x hx => ?_, ?_⟩
  · obtain ⟨_, _, hx, -⟩ := exists_right_of_paired hpaired hx
    exact hx
  · rw [List.flatMap_map]
    exact marks_flatMap_paired (hpaired.imp fun _ _ h => h.2)

end Builder

theorem nodup_putInclude (r : Relation) (options : IncludeOptions) {xs : List (Relation × IncludeOptions)}
    (h : (xs.map (·.1.name)).Nodup) : ((putInclude r options xs).map (·.1.name)).Nodup := by
  have hnames : (putInclude r options xs).map (·.1.name) =
      if r.name ∈ xs.map (·.1.name) then xs.map (·.1.name) else xs.map (·.1.name) ++ [r.name] := by
    clear h
    induction xs with
    | nil => rfl
    | cons x rest ih =>
      rw [putInclude]
      by_cases hx : x.1.name = r.name
      · simp [hx]
      · have hne : r.name ≠ x.1.name := Ne.symm hx
        simp only [beq_iff_eq, hx, if_false, List.map_cons, ih, List.mem_cons, hne, false_or]
        split <;> rfl
  rw [hnames]
  split
  · exact h
  · next hnew =>
    refine List.nodup_append.mpr ⟨h, by simp, fun name hname other hother heq => ?_⟩
    rw [List.mem_singleton.mp hother] at heq
    exact hnew (heq ▸ hname)

namespace Shelf

variable {calls : List Call} {id : Nat} {b : Builder}

/-- A relation is included once. -/
theorem includes_nodup (hget : (run calls).get? id = some b) :
    (b.clauses.includes.map (·.1.name)).Nodup := by
  have hevery : (run calls).Every fun _ c => (c.includes.map (·.1.name)).Nodup := by
    refine Kept.run ⟨fun _ _ _ _ _ => .nil, fun _ _ _ => .nil, fun id x binding c _ h => ?_⟩
    by_cases hx : x.group = .includes
    · cases x with
      | include_ relation options =>
        rw [Clauses.add]
        cases hfound : readInclude binding relation options with
        | error e => exact h
        | ok found => exact nodup_putInclude found.1 found.2 h
      | _ => cases hx
    · have hsame := congrArg Clauses.includes (Clauses.only_add_other binding hx c)
      simp only [Clauses.only] at hsame
      rwa [hsame]
  exact hevery.get hget

theorem joins_read (hget : (run calls).get? id = some b) :
    ∀ text ∈ b.clauses.joins, ∃ table left right kind, readJoin table left right kind = .ok text := by
  have hitems : (run calls).Every fun _ c => True ∧ ∀ x, c.Has x → ∀ text, x = .join text →
      ∃ table left right kind, readJoin table left right kind = .ok text := by
    refine every_item (fun _ _ _ _ _ => trivial) fun id c binding x _ _ brings text hx => ?_
    subst hx
    cases brings with
    | join h => exact ⟨_, _, _, _, h⟩
  exact fun text htext => (hitems.get hget).2 (.join text) htext text rfl

/-- The text of a statement that includes relations, up to its conditions: its projection, the bound table,
the tables that are joined, and the sources of the relations. -/
theorem toSql_from (hget : (run calls).get? id = some b) (included : b.clauses.includes ≠ [])
    (plain : ∀ x ∈ b.clauses.includes, '.' ∉ x.1.localColumn.toList) {st : Statement.Bound}
    (hst : (run calls).toSql b = .ok st) :
    ∃ (front back : List Piece) (joins : List Joined) (narrowed : Relation × IncludeOptions → List Piece),
      List.Forall₂ Joined.WrittenAs joins b.clauses.joins ∧
      (∀ x ∈ b.clauses.includes,
        expand (run calls).embedded (x.1.narrowing b.binding.table x.2) = .ok (narrowed x)) ∧
      st = bind (front ++ (From.mk b.binding.table (joins ++ b.clauses.includes.map fun x =>
        x.1.joined b.binding.table (narrowed x))).pieces ++ back) := by
  obtain ⟨parts, hparts, rfl⟩ := parts_of_toSql hst
  obtain ⟨head, hhead, hstart⟩ := map_ok (hparts .head)
  obtain ⟨front, rfl⟩ := Builder.head_from rfl included hhead
  obtain ⟨narrowed, hnarrowed, hincludes⟩ := Builder.includes_joined plain (hparts .includes)
  obtain ⟨joins, htables⟩ := exists_writtenAs (joins_read hget)
  have hjoins : marks ((parts .joins).flatMap (.text " " :: ·)) = marks (joins.flatMap Joined.pieces) := by
    rw [← Except.ok.inj (hparts .joins)]
    exact marks_flatMap_paired
      (List.forall₂_map_right_iff.mpr (htables.imp fun _ _ h => h.marks_eq))
  refine ⟨front, (parts .filter ++ parts .grouping ++ parts .having ++ parts .ordering ++ parts .limit
    ++ parts .offset).flatMap (.text " " :: ·), joins, narrowed, htables, hnarrowed, ?_⟩
  rw [← bind_joined]
  refine bind_eq_of_marks ?_
  have hall : Section.all.flatMap parts = (front ++ [.text (" FROM " ++ b.binding.table)])
      :: (parts .joins ++ parts .includes ++ (parts .filter ++ parts .grouping ++ parts .having
        ++ parts .ordering ++ parts .limit ++ parts .offset)) := by
    simp [Section.all, ← hstart]
  rw [hall, marks_joined, List.flatMap_append, List.flatMap_append, marks_append, marks_append, marks_append,
    hjoins, hincludes]
  simp only [From.pieces, marks_append, marks_text, List.flatMap_append, marks_nil, List.append_nil,
    List.append_assoc]

/-- The names of the sources that stand between the bound table and an include: the tables that are joined
and what was included before. -/
def between (joins : List Joined) (b : Builder) (i : Nat) : List String :=
  joins.map (·.source.label) ++ (b.clauses.includes.take i).map (·.1.joinAlias)

/-- What the names in a statement with includes stand for. Relations are told apart by their names, so the
aliases of two are distinct unless their names differ in case alone. The statement compares two columns for
each relation and no others in its sources; the first is always one of the related table, and the second
is captured by the related table exactly if the bound table has the name of the alias in there, and one of
the outer row exactly if neither that alias nor any source between has the name of the bound table. This
is so for all relations as long as that name ends in none of the suffixes and is not joined again. -/
theorem includes_correlate (calls : List Call) (id : Nat) (b : Builder)
    (hget : (run calls).get? id = some b) (included : b.clauses.includes ≠ [])
    (plain : ∀ x ∈ b.clauses.includes, '.' ∉ x.1.localColumn.toList) (st : Statement.Bound)
    (hst : (run calls).toSql b = .ok st) :
    (b.clauses.includes.map (·.1.name)).Nodup ∧
    (∀ x ∈ b.clauses.includes, ∀ y ∈ b.clauses.includes,
      (∃ a ∈ x.1.aliases, ∃ c ∈ y.1.aliases, asRead a = asRead c) ↔ lowered x.1.name = lowered y.1.name) ∧
    ∃ (front back : List Piece) (joins : List Joined) (narrowed : Relation × IncludeOptions → List Piece)
      (sources : From),
      sources = ⟨b.binding.table, joins ++ b.clauses.includes.map fun x =>
        x.1.joined b.binding.table (narrowed x)⟩ ∧
      List.Forall₂ Joined.WrittenAs joins b.clauses.joins ∧
      st = bind (front ++ sources.pieces ++ back) ∧
      (∀ c scope, (c, scope) ∈ sources.compared ↔ ∃ i x, b.clauses.includes[i]? = some x ∧
        (c = x.1.near ∨ c = x.1.far b.binding.table) ∧
        scope = scopeOf x.1 b.binding.table (between joins b i)) ∧
      (∀ (i : Nat) x, b.clauses.includes[i]? = some x →
        Resolves x.1.near.source (scopeOf x.1 b.binding.table (between joins b i)) 0 0 ∧
        (x.1.Captured b.binding.table (between joins b i) ↔
          asRead x.1.innerAlias = asRead b.binding.table) ∧
        (x.1.Correlated b.binding.table (between joins b i) ↔
          asRead x.1.innerAlias ≠ asRead b.binding.table ∧
            ∀ other ∈ between joins b i, asRead other ≠ asRead b.binding.table)) ∧
      ((∀ s ∈ Relation.suffixes, ¬ s.toList <:+ (asRead b.binding.table).toList) →
        (∀ x ∈ b.clauses.includes, ∀ a ∈ x.1.aliases, asRead a ≠ asRead b.binding.table) ∧
        ((∀ j ∈ joins, asRead j.source.label ≠ asRead b.binding.table) →
          ∀ (i : Nat) x, b.clauses.includes[i]? = some x →
            x.1.Correlated b.binding.table (between joins b i))) := by
  obtain ⟨front, back, joins, narrowed, htables, -, htext⟩ := toSql_from hget included plain hst
  refine ⟨includes_nodup hget, fun x _ y _ => x.1.share_alias_iff y.1, front, back, joins, narrowed, _,
    rfl, htables, htext, fun c scope => ?_, fun i x _ => ?_, fun hsuffix => ?_⟩
  · rw [From.compared, comparedIn_append, comparedIn_tables htables, List.nil_append]
    exact mem_comparedIn
  · exact ⟨Resolves.first_iff.mpr rfl, Relation.captured_iff, Relation.correlated_iff⟩
  · have hfree (x : Relation × IncludeOptions) : ∀ a ∈ x.1.aliases, asRead a ≠ asRead b.binding.table :=
      x.1.alias_ne hsuffix
    refine ⟨fun x _ => hfree x, fun hjoins i x _ => ?_⟩
    refine Relation.correlated_iff.mpr ⟨hfree x _ List.mem_cons_self, fun other hother => ?_⟩
    obtain hother | hother := List.mem_append.mp hother
    · obtain ⟨j, hj, rfl⟩ := List.mem_map.mp hother
      exact hjoins j hj
    · obtain ⟨y, -, rfl⟩ := List.mem_map.mp hother
      exact hfree y _ (by simp [Relation.aliases_eq])

/-- Posts with the user who wrote them and the posts that answer them. -/
def answered : List Call :=
  [.make { label := "Posts", table := "posts", selectAll := ""
           relations := [⟨"author", "users", "author_id", "id", false⟩,
             ⟨"answers", "posts", "id", "parent_id", true⟩] } .null,
   .clause 0 (.include_ (.text "author") (some {})),
   .clause 0 (.include_ (.text "answers") (some { limit := .int 3 }))]

def answeredText : String :=
  "SELECT posts.*, author_include.data AS \"author\", answers_include.data AS \"answers\" FROM posts "
    ++ "LEFT JOIN LATERAL (SELECT to_jsonb(author_row) AS data FROM (SELECT author_rel.* "
    ++ "FROM users AS author_rel WHERE author_rel.id = posts.author_id LIMIT 1) AS author_row) "
    ++ "AS author_include ON TRUE LEFT JOIN LATERAL (SELECT COALESCE(jsonb_agg(to_jsonb(answers_row)), "
    ++ "'[]'::jsonb) AS data FROM (SELECT answers_rel.* FROM posts AS answers_rel "
    ++ "WHERE answers_rel.parent_id = posts.id LIMIT 3) AS answers_row) AS answers_include ON TRUE"

/-- Both are tied to the outer post, although answers are posts themselves. -/
theorem includes_correlate_answered :
    ∃ b, (run answered).get? 0 = some b ∧
      ((run answered).toSql b).toOption.map (·.sql) = some answeredText ∧
      ∀ (i : Nat) x, b.clauses.includes[i]? = some x → x.1.Correlated "posts" (between [] b i) := by
  obtain ⟨b, hget, hb⟩ := (Option.any_eq_true (fun b => b.binding.table = "posts" ∧
    b.clauses.joins = [] ∧ b.clauses.includes.isEmpty = false ∧
    (∀ x ∈ b.clauses.includes, '.' ∉ x.1.localColumn.toList) ∧
    ((run answered).toSql b).toOption.map (·.sql) = some answeredText)
    ((run answered).get? 0)).mp (by decide +kernel)
  obtain ⟨htable, hjoins, hincluded, hplain, htext⟩ := of_decide_eq_true hb
  obtain ⟨st, hst, -⟩ := Option.map_eq_some_iff.mp htext
  obtain ⟨-, -, _, _, joins, _, _, -, hwritten, -, -, -, hfree⟩ := includes_correlate answered 0 b hget
    (by simpa using hincluded) hplain st (eq_ok_of_toOption hst)
  rw [hjoins, List.forall₂_nil_right_iff] at hwritten
  subst hwritten
  rw [htable] at hfree
  exact ⟨b, hget, htext, (hfree (by decide)).2 (List.forall_mem_nil _)⟩

/-- A relation of a table whose own name is that of the relation's alias. -/
def namesake : Relation :=
  ⟨"author", "users", "author_id", "id", false⟩

def namesakes : List Call :=
  [.make { label := "AuthorRels", table := "author_rel", selectAll := "", relations := [namesake] } .null,
   .clause 0 (.include_ (.text "author") (some {}))]

def namesakeSources : From :=
  ⟨"author_rel", [namesake.joined "author_rel" [.text " LIMIT 1"]]⟩

/-- There the column of the bound table is taken for one of the users, so that no user is tied to a row of
the bound table. -/
theorem namesake_captured :
    ((run namesakes).get? 0).map (fun b => ((run namesakes).toSql b).toOption.map (·.sql)) =
        some (some ("SELECT author_rel.*, author_include.data AS \"author\" FROM author_rel "
          ++ "LEFT JOIN LATERAL (SELECT to_jsonb(author_row) AS data FROM (SELECT author_rel.* FROM users "
          ++ "AS author_rel WHERE author_rel.id = author_rel.author_id LIMIT 1) AS author_row) "
          ++ "AS author_include ON TRUE")) ∧
      ((run namesakes).get? 0).map (fun b => ((run namesakes).toSql b).toOption.map (·.sql)) =
        some (some (bind (.text "SELECT author_rel.*, author_include.data AS \"author\""
          :: namesakeSources.pieces)).sql) ∧
      (namesake.far "author_rel", scopeOf namesake "author_rel" []) ∈ namesakeSources.compared ∧
      namesake.Captured "author_rel" [] ∧ ¬ namesake.Correlated "author_rel" [] := by
  refine ⟨by decide +kernel, by decide +kernel, ?_, ?_, ?_⟩
  · exact .tail _ (.head _)
  · exact Relation.captured_iff.mpr rfl
  · exact fun h => (Relation.correlated_iff.mp h).1 rfl

end Shelf

end TableLoom.Query
