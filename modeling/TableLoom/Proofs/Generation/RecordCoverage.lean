import TableLoom.Proofs.Generation.Supplied

/-!
The constants and the classes in the module of an accepted table read no name that is not there. The lines in
the bodies of functions have few forms; what a body reads is there, if what its forms need is given to the
function or bound in it.
-/

namespace TableLoom.Generation

open Code (Assignment Binding Function RecordClass Signature Stands Template Unquoted Wordy reads readsFrom
  words words_of_isName)
open Code.Function (Form)
open Schema (Field Registry Relationship Table)
open Text (IsName isIdentifier)

namespace LineForm

def recordValidated : Form where
  template := ⟨"return cls.model_validate(base_values(cls, row))", []⟩
  needs := ["cls", "row"]

def baseExtendedByOne : Form where
  template := ⟨"return cls(**base.model_dump(), ", [(.hidden, "="), (.given, ")")]⟩
  needs := ["cls", "base"]

def baseExtended : Form where
  template := ⟨"return cls(**base.model_dump(), **relations)", []⟩
  needs := ["cls", "base", "relations"]

def baseTaken : Form where
  template := ⟨"return ", [(.given, ".model_validate(self.model_dump(include=set("), (.given, ".model_fields)))")]⟩
  needs := ["self"]

def valuesRead : Form where
  template := ⟨"values: Dict[str, Any] = base_values(", [(.given, ", row)")]⟩
  needs := ["row"]
  binds := ["values"]

def relationDecoded : Form where
  template := ⟨"values[", [(.literal, "] = "), (.given, "("), (.given, ", row.get("), (.literal, "))")]⟩
  needs := ["values", "row"]

def valuesValidated : Form where
  template := ⟨"return cls.model_validate(values)", []⟩
  needs := ["cls", "values"]

def called : Form where
  template := ⟨"return ", [(.given, "()")]⟩
  needs := []

def paramsListed : Form where
  template := ⟨"params: List[Any] = ", [(.given, "")]⟩
  needs := []
  binds := ["params"]

def rowRequired : Form where
  template := ⟨"row: Dict[str, Any] = require_row(db.query_one(", [(.given, ", params), "), (.given, ", len(params))")]⟩
  needs := ["db", "params"]
  binds := ["row"]

def rowReturned : Form where
  template := ⟨"return ", [(.given, ".from_row(row)")]⟩
  needs := ["row"]

def rowsValidated : Form where
  template := ⟨"payload: List[Dict[str, Any]] = [", [(.given, ".model_validate(r).model_dump() for r in rows]")]⟩
  needs := ["r", "rows"]
  binds := ["payload", "r"]

def insertionBuilt : Form where
  template := ⟨"sql, params = build_insert_many(TABLE_NAME, INPUT_COLUMNS, payload, INSERT_DEFAULTS)", []⟩
  needs := ["sql", "build_insert_many", "payload"]
  binds := ["sql", "params"]

def rowsReturned : Form where
  template := ⟨"return [", [(.given, ".from_row(row) for row in db.query(sql, params)]")]⟩
  needs := ["row", "db", "sql", "params"]
  binds := ["row"]

def statementChosen : Form where
  template := ⟨"sql: str = FIND_BY_ID_WITH_DELETED_SQL if include_deleted else FIND_BY_ID_SQL", []⟩
  needs := ["FIND_BY_ID_WITH_DELETED_SQL", "include_deleted", "FIND_BY_ID_SQL"]
  binds := ["sql"]

def rowSelected : Form where
  template := ⟨"row: Optional[Dict[str, Any]] = db.query_one(sql, [", [(.given, "])")]⟩
  needs := ["db", "sql"]
  binds := ["row"]

def rowFound : Form where
  template := ⟨"row: Optional[Dict[str, Any]] = db.query_one(FIND_BY_ID_SQL, [", [(.given, "])")]⟩
  needs := ["db", "FIND_BY_ID_SQL"]
  binds := ["row"]

def rowChanged : Form where
  template := ⟨"row: Optional[Dict[str, Any]] = db.query_one(sql, params)", []⟩
  needs := ["db", "sql", "params"]
  binds := ["row"]

def tableFound : Form where
  template := ⟨"row: Optional[Dict[str, Any]] = db.query_one(TABLE_EXISTS_SQL, [TABLE_NAME])", []⟩
  needs := ["db"]
  binds := ["row"]

def rowMaybeReturned : Form where
  template := ⟨"return ", [(.given, ".from_row(row) if row is not None else None")]⟩
  needs := ["row"]

def queryChosen : Form where
  template := ⟨"return (query().with_deleted() if include_deleted else query()).", [(.hidden, "(db)")]⟩
  needs := ["include_deleted", "db"]

def queryRun : Form where
  template := ⟨"return query().", [(.hidden, "(db)")]⟩
  needs := ["db"]

def changesValidated : Form where
  template := ⟨"values: Dict[str, Any] = ",
    [(.given, ".model_validate(changes).model_dump(exclude_unset=True)")]⟩
  needs := ["changes"]
  binds := ["values"]

def updateBuilt : Form where
  template := ⟨"sql, params = build_update(TABLE_NAME, ", [(.literal, ", "), (.given, ", values, INPUT_COLUMNS)")]⟩
  needs := ["sql", "build_update", "values"]
  binds := ["sql", "params"]

def executed : Form where
  template := ⟨"return db.execute(", [(.given, ", ["), (.given, "])")]⟩
  needs := ["db"]

def truncated : Form where
  template := ⟨"db.execute(TRUNCATE_SQL)", []⟩
  needs := ["db"]

def foundReturned : Form where
  template := ⟨"return bool(row[\"found\"]) if row is not None else False", []⟩
  needs := ["row"]

def all : List Form :=
  [recordValidated, baseExtendedByOne, baseExtended, baseTaken, valuesRead, relationDecoded, valuesValidated,
    called, paramsListed, rowRequired, rowReturned, rowsValidated, insertionBuilt, rowsReturned,
    statementChosen, rowSelected, rowFound, rowChanged, tableFound, rowMaybeReturned, queryChosen, queryRun,
    changesValidated, updateBuilt, executed, truncated, foundReturned]

theorem sound : ∀ F ∈ all, F.sound commonNames = true := by
  decide +kernel

end LineForm

section

variable {c : Config} {r : Registry} {t : Table} {xs : List Resolved}

theorem stands_there {n : String} (name : IsName n) (there : There c t xs n) : Stands (There c t xs) n := by
  refine Code.stands_of_isIdentifier (Text.isIdentifier_iff.mpr (.inl name)) ?_
  rw [words_of_isName name, List.forall_mem_singleton]
  exact there

/-- The body of a function whose lines have such forms. -/
theorem reads_body {f : Function} (forms : List Form) (params extra : List String)
    (known : ∀ F ∈ forms, F ∈ LineForm.all) (there : ∀ n ∈ extra, There c t xs n)
    (sub : params ⊆ f.signature.names) (plain : ∀ p ∈ params, IsName p)
    (body : List.Forall₂ (fun l F => F.template.Fills (fun n => n ∈ f.locals ∨ There c t xs n) l.text)
      f.body forms)
    (needs : forms.flatMap Form.needs ⊆ params ++ forms.flatMap Form.binds ++ extra) :
    ∀ l ∈ f.body, ∀ n ∈ reads l.text, n ∈ f.locals ∨ There c t xs n :=
  Function.reads_body (fun F hF => LineForm.sound F (known F hF))
    (List.forall_mem_append.mpr ⟨supplied_common, there⟩) sub plain body needs

/-- A parameter stands in the body of its function. -/
theorem stands_parameter {f : Function} {n : String} (hn : isIdentifier n = true) (h : n ∈ f.signature.names) :
    Stands (fun n => n ∈ f.locals ∨ There c t xs n) n :=
  Code.stands_of_isIdentifier hn fun _ hword => .inl (Function.mem_locals_of_name h hword)

theorem unquoted_around {before name after : String} (hbefore : Unquoted before)
    (h : isIdentifier name = true) (hafter : Unquoted after) : Unquoted (before ++ name ++ after) :=
  (hbefore.append (Wordy.of_isIdentifier h).unquoted).append hafter

/-- A setting with a common type or none. -/
theorem fits_source {name value : String} {type : Option String} (hname : IsName name)
    (htype : ∀ s ∈ type, s ∈ commonTexts) (hvalue : Stands (There c t xs) value) :
    (⟨name, type, .source value⟩ : Assignment).Fits (There c t xs) :=
  ⟨Code.oneWord_of_isName hname, fun s hs => stands_common (htype s hs), hvalue⟩

theorem stands_none : Stands (There c t xs) "None" :=
  stands_common (by simp [commonTexts])

/-- A parameter that may not be left out. -/
theorem fits_parameter {name type : String} (hname : IsName name) (htype : Stands (There c t xs) type) :
    (⟨name, type, none⟩ : Binding).Fits (There c t xs) :=
  ⟨Code.oneWord_of_isName hname, htype, by simp⟩

theorem fits_rowBinding : TableModule.rowBinding.Fits (There c t xs) :=
  fits_parameter (by decide) (stands_common (by simp [commonTexts]))

theorem fits_database : TableModule.database.Fits (There c t xs) :=
  fits_parameter (by decide) (stands_common (by simp [commonTexts]))

/-- A flag that may be left out. -/
theorem fits_withDeleted : TableModule.withDeleted.Fits (There c t xs) :=
  ⟨Code.oneWord_of_isName (by decide), stands_common (by simp [commonTexts, TableModule.withDeleted]),
    fun d hd => Option.some_inj.mp hd ▸ stands_common (by simp [commonTexts])⟩

/-! ### Constants and classes -/

theorem fits_constants : ∀ a ∈ TableModule.constants t, a.Fits (There c t xs) := by
  have hnames : ∀ n ∈ constantNames, isIdentifier n = true := by decide
  have hkind : ∀ a ∈ TableModule.constants t, (∀ s ∈ a.type, s ∈ commonTexts) ∧ a.value.Fits (There c t xs) := by
    have hsql (name statement : String) : (∀ s ∈ (TableModule.sql name statement).type, s ∈ commonTexts) ∧
        (TableModule.sql name statement).value.Fits (There c t xs) :=
      ⟨by simp [TableModule.sql, TableModule.constant, commonTexts], trivial⟩
    have hkey (key : String) : ∀ a ∈ TableModule.keyConstants t key,
        (∀ s ∈ a.type, s ∈ commonTexts) ∧ a.value.Fits (There c t xs) := by
      simp only [TableModule.keyConstants, List.forall_mem_append]
      refine ⟨?_, List.forall_mem_singleton.mpr (hsql ..)⟩
      split
      · simp only [List.forall_mem_cons]
        exact ⟨hsql .., hsql .., hsql .., by simp⟩
      · exact List.forall_mem_singleton.mpr (hsql ..)
    simp only [TableModule.constants, List.forall_mem_append, List.forall_mem_cons, List.forall_mem_flatMap,
      List.forall_mem_map]
    refine ⟨⟨⟨⟨hsql .., hsql .., ⟨?_, trivial⟩, ⟨?_, trivial⟩, ⟨?_, trivial⟩, hsql .., by simp⟩,
      fun f _ => hkey f.name⟩, fun s _ => hsql ..⟩, hsql .., hsql .., by simp⟩
    all_goals simp [TableModule.constant, commonTexts]
  intro a ha
  have hname := (names_constants t).subset (List.mem_map_of_mem (f := (·.name)) ha)
  exact ⟨Code.oneWord_of_isIdentifier (hnames _ hname), fun s hs => stands_common ((hkind a ha).1 s hs),
    (hkind a ha).2⟩

/-- A relation as the query class describes it. -/
theorem stands_relationEntry (rel : Relationship) :
    Stands (There c t xs) (TableModule.relationEntry t rel) := by
  let form (b : Bool) : Template := ⟨"", [(.literal, ": Relation("), (.literal, ", "), (.literal, ", "),
    (.literal, ", "), (.literal, ", many=" ++ TableModule.flag b ++ ")")]⟩
  have hform : ∀ b, (form b).whole = true ∧ readsFrom ":" (form b).tokens ⊆ commonNames := by decide
  have hlast (s : String) : Text.join ", " [s] = s := rfl
  have hfills : (form rel.isMany).Fills (There c t xs) (TableModule.relationEntry t rel) := by
    refine ⟨[rel.member, rel.member, rel.references.table, rel.column, rel.foreignColumn t.name], ?_,
      .cons trivial (.cons trivial (.cons trivial (.cons trivial (.cons trivial .nil))))⟩
    simp [form, TableModule.relationEntry, Text.join_cons,
      hlast, toString, String.append_assoc]
  exact hfills.stands (hform _).1 fun n hn => supplied_common n ((hform _).2 hn)

theorem fits_braces {name : String} {items : List String} (hname : IsName name)
    (h : ∀ i ∈ items, Stands (There c t xs) i) :
    (⟨name, none, TableModule.braces items⟩ : Assignment).Fits (There c t xs) := by
  unfold TableModule.braces
  split
  · exact fits_source hname (by simp) (stands_common (by simp [commonTexts]))
  · exact ⟨Code.oneWord_of_isName hname, by simp, by simp, h⟩

section

variable (ht : t ∈ r.examine.tables)

include ht

theorem fits_recordMember {f : Field} (hf : f ∈ t.fields) :
    (TableModule.recordMember f).Fits (There c t xs) := by
  refine ⟨Code.oneWord_of_isIdentifier (isIdentifier_field ht hf), stands_memberType hf, fun d hd => ?_⟩
  have hfield {d : String} (hredacted : f.redacted = true) (whole : (⟨d, []⟩ : Template).whole = true)
      (names : readsFrom ":" (words d) = ["Field"]) : Stands (There c t xs) d :=
    Code.stands_text whole (by rw [names, List.forall_mem_singleton]; exact (Asked.field hf hredacted).supplied)
  cases hredacted : f.redacted <;> cases hnullable : f.nullable <;>
    simp only [TableModule.recordMember, hredacted, hnullable, Option.mem_def, reduceCtorEq,
      Option.some.injEq] at hd
  · exact hd ▸ stands_none
  · exact hd ▸ hfield hredacted (by decide) (by decide)
  · exact hd ▸ hfield hredacted (by decide) (by decide)

theorem fits_inputMember {f : Field} (hf : f ∈ t.inputFields) :
    (TableModule.inputMember f).Fits (There c t xs) := by
  have hf := List.mem_of_mem_filter hf
  have hname := Code.oneWord_of_isIdentifier (isIdentifier_field ht hf)
  unfold TableModule.inputMember
  split
  · exact ⟨hname, stands_optionalOf (stands_memberType hf), fun d hd => Option.some_inj.mp hd ▸ stands_none⟩
  · exact ⟨hname, stands_memberType hf, by simp⟩

theorem fits_changeMember {f : Field} (hf : f ∈ t.inputFields) :
    (TableModule.changeMember f).Fits (There c t xs) := by
  have hf := List.mem_of_mem_filter hf
  exact ⟨Code.oneWord_of_isIdentifier (isIdentifier_field ht hf), stands_optionalOf (stands_baseType hf),
    fun d hd => Option.some_inj.mp hd ▸ stands_none⟩

theorem fits_recordClass : (TableModule.recordClass t).Fits (There c t xs) where
  name := stands_record ht
  base := stands_common (by simp [commonTexts, TableModule.recordClass])
  doc := unquoted_around (by decide) (isIdentifier_table ht) (by decide)
  sections := by
    simp only [TableModule.recordClass, List.forall_mem_cons, Code.Section.Fits, List.forall_mem_map,
      TableModule.constant]
    refine ⟨⟨fits_source (by decide) (by simp) (stands_common (by simp [commonTexts])), by simp⟩,
      ⟨fits_source (by decide) (by simp [commonTexts]) (stands_common (by simp [commonTexts])),
        fits_source (by decide) (by simp [commonTexts]) (stands_common (by simp [commonTexts])), by simp⟩,
      fun f hf => fits_recordMember ht hf, ?_, by simp⟩
    constructor
    case name => exact (by decide : IsName "from_row")
    case receiver => simp; decide
    case bindings => simp [fits_rowBinding]
    case result => exact stands_record ht
    case doc => simp; decide
    case body =>
      exact reads_body [LineForm.recordValidated] ["cls", "row"] [] (by simp [LineForm.all]) (by simp)
        (by simp [Signature.names, TableModule.rowBinding]) (by decide)
        (.cons (Template.fills_text _) .nil) (by decide)

omit ht in
theorem fits_inputClass {name doc : String} {members : List Binding} (hname : Stands (There c t xs) name)
    (hdoc : Unquoted doc) (hmembers : ∀ b ∈ members, b.Fits (There c t xs)) :
    (TableModule.inputClass name doc members).Fits (There c t xs) where
  name := hname
  base := stands_common (by simp [commonTexts, TableModule.inputClass])
  doc := hdoc
  sections := by
    simp only [TableModule.inputClass, List.forall_mem_cons, Code.Section.Fits]
    refine ⟨⟨fits_source (by decide) (by simp) (stands_common (by simp [commonTexts])), by simp⟩, fun g hg => ?_⟩
    split at hg
    · cases hg
    · rw [List.mem_singleton.mp hg]
      exact hmembers

theorem fits_toBase : (⟨"to_base", { receiver := some "self" }, t.recordName, none, false, [{ text :=
    s!"return {t.recordName}.model_validate(self.model_dump(include=set({t.recordName}.model_fields)))" }]⟩ :
      Function).Fits (There c t xs) where
  name := (by decide : IsName "to_base")
  receiver := by simp; decide
  bindings := by simp
  result := stands_record ht
  doc := by simp
  body := by
    have hrecord {f : Function} : Stands (fun n => n ∈ f.locals ∨ There c t xs n) t.recordName :=
      (stands_record ht).mono fun _ => .inr
    refine reads_body [LineForm.baseTaken] ["self"] [] (by simp [LineForm.all]) (by simp)
      (by simp [Signature.names]) (by decide)
      (.cons ⟨[t.recordName, t.recordName], ?_, .cons hrecord (.cons hrecord .nil)⟩ .nil) (by decide)
    simp [LineForm.baseTaken, toString, String.append_assoc]

section

variable (hfound : List.Forall₂ (Found r.examine.tables) (c.variants t) xs)

include hfound

theorem fits_relationMember {x : Resolved} (hx : x ∈ xs) :
    (TableModule.relationMember t x).Fits (There c t xs) := by
  obtain ⟨rel, hrel, rfl, -⟩ := exists_left_of_paired hfound hx
  refine ⟨Code.oneWord_of_isIdentifier (isIdentifier_member ht hrel), ?_,
    fun d hd => Option.some_inj.mp hd ▸ stands_none⟩
  have hreference := stands_reference ht hfound hx
  simp only [TableModule.relationMember, TableModule.relationType]
  split
  · exact stands_generic (b := ("Optional[List[", "]]")) (by simp) hreference
  · exact stands_optional hreference

theorem fits_fromBase {name : String} {ys : List Resolved} (hys : ys ⊆ xs)
    (hname : Stands (There c t xs) name) : (TableModule.fromBase t name ys).Fits (There c t xs) := by
  have hbase : (⟨"base", t.recordName, none⟩ : Binding).Fits (There c t xs) :=
    fits_parameter (by decide) (stands_record ht)
  have hothers : (⟨"relations", "Any", none⟩ : Binding).Fits (There c t xs) :=
    fits_parameter (by decide) (stands_common (by simp [commonTexts]))
  unfold TableModule.fromBase
  split
  · next y =>
      have hy : y ∈ xs := hys List.mem_cons_self
      obtain ⟨rel, hrel, rfl, -⟩ := exists_left_of_paired hfound hy
      have hmember := isIdentifier_member ht hrel
      constructor
      case name => exact (by decide : IsName "from_base")
      case receiver => simp; decide
      case bindings => simp [hbase, fits_relationMember ht hfound hy]
      case result => exact hname
      case doc => simp
      case body =>
        refine reads_body [LineForm.baseExtendedByOne] ["cls", "base"] [] (by simp [LineForm.all]) (by simp)
          (by simp [Signature.names]) (by decide) (.cons ⟨[y.relationship.member, y.relationship.member], ?_,
            .cons (Code.oneWord_of_isIdentifier hmember) (.cons ?_ .nil)⟩ .nil) (by decide)
        · simp [LineForm.baseExtendedByOne, TableModule.relationMember, toString, String.append_assoc]
        · exact stands_parameter hmember (by simp [Signature.names, TableModule.relationMember])
  · constructor
    case name => exact (by decide : IsName "from_base")
    case receiver => simp; decide
    case bindings => simp [hbase, hothers]
    case result => exact hname
    case doc => simp
    case body =>
      exact reads_body [LineForm.baseExtended] ["cls", "base", "relations"] [] (by simp [LineForm.all]) (by simp)
        (by simp [Signature.names]) (by decide) (.cons (Template.fills_text _) .nil) (by decide)

theorem fills_decodeLine {x : Resolved} (hx : x ∈ xs) :
    LineForm.relationDecoded.template.Fills (There c t xs) (TableModule.decodeLine t x).text := by
  obtain ⟨rel, hrel, rfl, -⟩ := exists_left_of_paired hfound hx
  have hdecoder : Stands (There c t xs) (TableModule.decoder x.relationship) := by
    refine stands_there ?_ (Asked.decoder hrel).supplied
    unfold TableModule.decoder
    split <;> decide
  refine ⟨[x.relationship.member, TableModule.decoder x.relationship, t.recordReference x.target,
    x.relationship.member], ?_, .cons trivial (.cons hdecoder (.cons (stands_reference ht hfound hx)
      (.cons trivial .nil)))⟩
  simp [LineForm.relationDecoded, TableModule.decodeLine, toString, String.append_assoc]

theorem unquoted_variantDoc {ys : List Resolved} (hys : ys ⊆ xs) : Unquoted (TableModule.variantDoc t ys) := by
  unfold TableModule.variantDoc
  split
  · next y =>
      obtain ⟨rel, hrel, rfl, -⟩ := exists_left_of_paired hfound (hys List.mem_cons_self)
      exact unquoted_around (unquoted_around (by decide) (isIdentifier_table ht) (by decide))
        (isIdentifier_member ht hrel) (by decide)
  · exact unquoted_around (by decide) (isIdentifier_table ht) (by decide)

theorem fits_variantClass {name : String} {ys : List Resolved} (hys : ys ⊆ xs)
    (hname : Stands (There c t xs) name) : (TableModule.variantClass t name ys).Fits (There c t xs) where
  name := hname
  base := stands_record ht
  doc := unquoted_variantDoc ht hfound hys
  sections := by
    simp only [TableModule.variantClass, List.forall_mem_cons, Code.Section.Fits, List.forall_mem_map]
    refine ⟨fun y hy => fits_relationMember ht hfound (hys hy), fits_fromBase ht hfound hys hname,
      fits_toBase ht, ?_, by simp⟩
    constructor
    case name => exact (by decide : IsName "from_row")
    case receiver => simp; decide
    case bindings => simp [fits_rowBinding]
    case result => exact hname
    case doc => simp; decide
    case body =>
      have hfirst : LineForm.valuesRead.template.Fills (There c t xs)
          s!"values: Dict[str, Any] = base_values({t.recordName}, row)" := by
        refine ⟨[t.recordName], ?_, .cons (stands_record ht) .nil⟩
        simp [LineForm.valuesRead, toString, String.append_assoc]
      refine reads_body
        (LineForm.valuesRead :: ys.map (fun _ => LineForm.relationDecoded) ++ [LineForm.valuesValidated])
        ["cls", "row"] [] ?_ (by simp) (by simp [Signature.names, TableModule.rowBinding]) (by decide)
        (List.rel_append ?_ ?_) ?_
      · simp only [List.forall_mem_append, List.forall_mem_cons, List.forall_mem_map]
        simp [LineForm.all]
      · refine .cons (hfirst.mono fun _ => .inr) ?_
        rw [List.forall₂_map_left_iff, List.forall₂_map_right_iff, List.forall₂_same]
        exact fun y hy => (fills_decodeLine ht hfound (hys hy)).mono fun _ => .inr
      · exact .cons (Template.fills_text _) .nil
      · intro n hn
        simp only [LineForm.valuesRead, LineForm.relationDecoded, LineForm.valuesValidated, List.mem_append,
          List.flatMap_append, List.flatMap_cons, List.flatMap_map, List.mem_flatMap, List.mem_cons,
          List.not_mem_nil, or_false] at hn ⊢
        tauto

theorem stands_loaded {k : RecordClass}
    (hk : k ∈ xs.map (fun x => TableModule.variantClass t (t.variantName x.relationship) [x])
      ++ [TableModule.variantClass t t.allRelationsName xs]) (hne : xs ≠ []) :
    Stands (There c t xs) k.name := by
  refine stands_class ht hfound (List.mem_append_left _ (List.mem_append_right _ ?_))
  rwa [if_neg (by simpa using hne)]

theorem fits_queryClass : (TableModule.queryClass t (xs.map (·.relationship))).Fits (There c t xs) where
  name := stands_class ht hfound (k := TableModule.queryClass t (xs.map (·.relationship)))
    (by simp [TableModule.classes])
  base := stands_common (by simp [commonTexts, TableModule.queryClass])
  doc := unquoted_around (by decide) (isIdentifier_table ht) (by decide)
  sections := by
    have hplain {name value : String} (hname : IsName name) (hvalue : value ∈ commonTexts) :
        (⟨name, none, .source value⟩ : Assignment).Fits (There c t xs) :=
      fits_source hname (by simp) (stands_common hvalue)
    have hflag : TableModule.flag t.hasSoftDelete ∈ commonTexts := by
      unfold TableModule.flag
      split <;> simp [commonTexts]
    rw [TableModule.queryClass, List.forall_mem_singleton, Code.Section.Fits, List.forall_mem_append]
    constructor
    · simp only [List.forall_mem_cons]
      exact ⟨hplain (by decide) (by simp [commonTexts]), hplain (by decide) (by simp [commonTexts]),
        hplain (by decide) (by simp [commonTexts]), hplain (by decide) hflag,
        fits_source (by decide) (by simp) (stands_record ht),
        fits_braces (by decide) (List.forall_mem_map.mpr fun rel _ => stands_relationEntry rel), by simp⟩
    · split
      · simp
      · next hne =>
          have hne : xs ≠ [] := by simpa using hne
          rw [List.forall_mem_cons, List.forall_mem_singleton]
          refine ⟨fits_braces (by decide) (List.forall_mem_map.mpr fun rel hrel => ?_),
            fits_source (by decide) (by simp) (stands_loaded ht hfound
              (List.mem_append_right _ (List.mem_singleton_self _)) hne)⟩
          obtain ⟨x, hx, rfl⟩ := List.mem_map.mp hrel
          have hname := stands_loaded ht hfound (List.mem_append_left _ (List.mem_map_of_mem hx)) hne
          let T : Template := ⟨"", [(.literal, ": "), (.given, "")]⟩
          have hfills : T.Fills (There c t xs)
              (Text.sourceQuoted x.relationship.member ++ s!": {t.variantName x.relationship}") := by
            refine ⟨[x.relationship.member, t.variantName x.relationship], ?_,
              .cons trivial (.cons hname .nil)⟩
            simp [T, toString]
          exact hfills.stands_plain (by decide) (by decide)

theorem fits_classes : ∀ k ∈ TableModule.classes t xs, k.Fits (There c t xs) := by
  intro k hk
  have hname := stands_class ht hfound hk
  rcases mem_classes hk with hplain | ⟨name, ys, hys, rfl⟩
  · simp only [List.mem_cons, List.not_mem_nil, or_false] at hplain
    rcases hplain with rfl | rfl | rfl | rfl
    · exact fits_recordClass ht
    · exact fits_inputClass hname (unquoted_around (by decide) (isIdentifier_table ht) (by decide))
        (List.forall_mem_map.mpr fun f hf => fits_inputMember ht hf)
    · exact fits_inputClass hname (unquoted_around (by decide) (isIdentifier_table ht) (by decide))
        (List.forall_mem_map.mpr fun f hf => fits_changeMember ht hf)
    · exact fits_queryClass ht hfound
  · exact fits_variantClass ht hfound hys hname

end

end

end

end TableLoom.Generation
