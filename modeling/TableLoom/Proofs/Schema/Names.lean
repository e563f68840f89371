import TableLoom.Proofs.Schema.Acceptance
import TableLoom.Proofs.Text.Tokens
import TableLoom.Proofs.Text.Words

/-!
The names of accepted tables. The rules let one line break pass at the end of a name, and nothing else
beside a name. Names that are made from others hold a line break only if those do, so all are plain once
the names that the registry gives are.
-/

namespace TableLoom

namespace Text

theorem isNameRest_toUpper {c : Char} (h : isNameRest c = true) : isNameRest c.toUpper = true := by
  by_cases hlower : c.isLower = true
  · have hupper := Naming.isUpper_toUpper hlower
    simp [isNameRest, Char.isAlphanum, Char.isAlpha, hupper]
  · rwa [Char.toUpper_eq_of_not_isLower hlower]

theorem isNameRest_pascal {s : String} (h : IsName s) :
    ∀ c ∈ (Naming.pascal s).toList, isNameRest c = true := by
  intro d hd
  obtain ⟨c, hc, rfl | rfl⟩ :=
    Naming.mem_pascal (ascii_of_isIdentifier (isIdentifier_iff.mpr (.inl h))) hd
  · exact h.chars _ hc
  · exact isNameRest_toUpper (h.chars c hc)

end Text

namespace Schema

open Text (IsName isIdentifier)

theorem subset_scan {α β : Type} {name : α → String} (test : List String → α → List β)
    {items : List α} {a : α} (h : a ∈ items) (seen : List String) :
    ∃ before, test before a ⊆ scan name test seen items := by
  induction items generalizing seen with
  | nil => cases h
  | cons first rest ih =>
      rw [scan]
      rcases List.mem_cons.mp h with rfl | h
      · exact ⟨seen, List.subset_append_left _ _⟩
      · obtain ⟨before, hbefore⟩ := ih h (name first :: seen)
        exact ⟨before, List.subset_append_of_subset_right _ hbefore⟩

namespace Table

theorem Passes.indexNames {t : Table} {known : Known} (h : t.Passes known) :
    ∀ i ∈ t.indexes, isIdentifier i.name = true := by
  intro i hi
  obtain ⟨before, hbefore⟩ := subset_scan (Rules.indexNames t) hi []
  have hrule : ∀ v ∈ Rules.indexNames t before i, v.severity ≠ .error :=
    fun v hv => h.rule (r := Rules.identifiers) (by simp [Rules.all]) v
      (List.mem_append_right _ (hbefore hv))
  rw [Rules.indexNames, List.forall_mem_append, Rules.forall_mem_when] at hrule
  simpa [Violation.severity] using hrule.1

def indexNames (t : Table) : List String := t.indexes.map (·.name)

def memberNames (t : Table) : List String := t.relationships.map (·.member)

/-- The names that emitted source has as names: those of the table, its record, fields and relations. -/
def sourceNames (t : Table) : List String :=
  t.name :: t.recordName :: t.fieldNames ++ t.memberNames

def names (t : Table) : List String :=
  t.sourceNames ++ t.indexNames

/-- The names as the registry gives them, from which all others are made. -/
def givenNames (t : Table) : List String :=
  t.name :: t.structName.toList ++ t.fieldNames ++ t.indexNames

theorem recordName_cases (t : Table) :
    t.structName = some t.recordName ∨ t.recordName = Naming.pascalSingular t.name := by
  unfold recordName
  split
  · next s hs =>
      split
      · exact .inr rfl
      · exact .inl hs
  · exact .inr rfl

end Table

namespace Registry

variable {r : Registry} {t : Table}

theorem isIdentifier_names (ht : t ∈ r.examine.tables) : ∀ n ∈ t.names, isIdentifier n = true := by
  obtain ⟨_, _, _, _, -, hpasses⟩ := mem_tables ht
  have hname {s : String} (hs : isName s = true) : isIdentifier s = true :=
    (Bool.and_eq_true_iff.mp hs).1
  simp only [Table.names, Table.sourceNames, List.cons_append, List.forall_mem_cons,
    List.forall_mem_append, Table.fieldNames, Table.memberNames, Table.indexNames, List.forall_mem_map]
  exact ⟨hname hpasses.names.1, hname hpasses.recordName,
    ⟨hpasses.fieldNames, fun rel hrel => hname (hpasses.relationships rel hrel).2⟩,
    hpasses.indexNames⟩

theorem notMem_keywords (ht : t ∈ r.examine.tables) : ∀ n ∈ t.sourceNames, n ∉ Code.keywords := by
  obtain ⟨_, _, _, _, -, hpasses⟩ := mem_tables ht
  have hfree {s : String} (hs : Code.isKeyword s = false) : s ∉ Code.keywords := by
    simpa [Code.isKeyword] using hs
  have hname {s : String} (hs : isName s = true) : s ∉ Code.keywords :=
    hfree (by simpa using (Bool.and_eq_true_iff.mp hs).2)
  have hfield (f : Field) (hf : f ∈ t.fields) : f.name ∉ Code.keywords := by
    have hreserved := (hpasses.fields f hf).2
    simp only [isReservedMember, Bool.or_eq_false_iff] at hreserved
    exact hfree hreserved.1.1.1
  simp only [Table.sourceNames, List.cons_append, List.forall_mem_cons, List.forall_mem_append,
    Table.fieldNames, Table.memberNames, List.forall_mem_map]
  exact ⟨hname hpasses.names.1, hname hpasses.recordName, hfield,
    fun rel hrel => hname (hpasses.relationships rel hrel).2⟩

/-- No name that is given for an accepted table holds a line break. -/
def Unbroken (r : Registry) : Prop :=
  ∀ t ∈ r.examine.tables, ∀ n ∈ t.givenNames, '\n' ∉ n.toList

namespace Unbroken

variable (h : r.Unbroken) (ht : t ∈ r.examine.tables)

include h ht

theorem name : '\n' ∉ t.name.toList := h t ht _ (by simp [Table.givenNames])

theorem field {f : Field} (hf : f ∈ t.fields) : '\n' ∉ f.name.toList :=
  h t ht _ (by simpa [Table.givenNames, Table.fieldNames] using .inr (.inr (.inl ⟨f, hf, rfl⟩)))

theorem recordName : '\n' ∉ t.recordName.toList := by
  rcases t.recordName_cases with hchosen | hderived
  · exact h t ht _ (by simp [Table.givenNames, hchosen])
  · intro hbreak
    have hascii : Text.Ascii t.name := Text.ascii_of_isIdentifier
      (isIdentifier_names ht _ (by simp [Table.names, Table.sourceNames]))
    rw [hderived, Naming.pascalSingular] at hbreak
    obtain ⟨c, hc, hsame⟩ := Naming.mem_pascal (Naming.ascii_singular hascii) hbreak
    -- No other character has the line break for its upper case.
    obtain rfl : c = '\n' := by
      by_contra hne
      exact hsame.elim (Ne.symm hne) (Ne.symm (Naming.toUpper_ne (by decide) hne))
    exact h.name ht ((Naming.prefix_singular _).subset hc)

theorem member {rel : Relationship} (hrel : rel ∈ t.relationships) : '\n' ∉ rel.member.toList := by
  obtain ⟨_, _, _, _, -, hpasses⟩ := mem_tables ht
  obtain ⟨u, hu, htarget⟩ := exists_table (target_mem_accepted ht hrel)
  obtain ⟨f, hf, hcolumn⟩ := Table.exists_of_hasField (hpasses.relationships rel hrel).1
  have htable : '\n' ∉ rel.references.table.toList := htarget ▸ h.name hu
  unfold Relationship.member Naming.relationMember
  split
  · exact htable
  · split
    · exact fun hbreak => htable ((Naming.prefix_singular _).subset hbreak)
    · exact fun hbreak => (hcolumn ▸ h.field ht hf) ((Naming.prefix_keyStem _).subset hbreak)

theorem names : ∀ n ∈ t.names, IsName n := by
  intro n hn
  refine (Text.isName_iff_of_isIdentifier (isIdentifier_names ht n hn)).mpr ?_
  simp only [Table.names, Table.sourceNames, List.cons_append, List.mem_cons, List.mem_append] at hn
  rcases hn with rfl | rfl | (hn | hn) | hn
  · exact h.name ht
  · exact h.recordName ht
  · exact h t ht n (by simp [Table.givenNames, hn])
  · obtain ⟨rel, hrel, rfl⟩ := List.mem_map.mp hn
    exact h.member ht hrel
  · exact h t ht n (by simp [Table.givenNames, hn])

end Unbroken

theorem unbroken_iff : (∀ t ∈ r.examine.tables, ∀ n ∈ t.names, IsName n) ↔ r.Unbroken := by
  refine ⟨fun h t ht n hn => ?_, fun h t ht => h.names ht⟩
  have hplain {n : String} (hn : n ∈ t.names) : '\n' ∉ n.toList := (h t ht n hn).no_line_break
  simp only [Table.givenNames, List.cons_append, List.mem_cons, List.mem_append,
    Option.mem_toList] at hn
  rcases hn with rfl | (hchosen | hn) | hn
  · exact hplain (by simp [Table.names, Table.sourceNames])
  · by_cases hempty : n = ""
    · simp [hempty]
    · have hrecord : t.recordName = n := by
        rw [Table.recordName, hchosen]
        simp [hempty]
      exact hplain (by simp [Table.names, Table.sourceNames, hrecord])
  · exact hplain (by simp [Table.names, Table.sourceNames, hn])
  · exact hplain (by simp [Table.names, hn])

end Registry

end Schema

end TableLoom
