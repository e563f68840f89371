import TableLoom.Generation.RecordName
import TableLoom.Proofs.Code.Legible
import TableLoom.Proofs.Generation.Characters

/-!
Tables whose free texts are legible: their defaults, and the columns that their relationships join. All
other texts of such a table are names, and so its statements and annotations are legible too.
-/

namespace TableLoom

open Text (Ascii legible_append legible_comma legible_commas legible_join legible_ofList
  legible_sourceQuoted legible_toString)

namespace Schema

/-- Nothing in the table keeps its module from being written to a file. -/
structure Table.Writable (t : Table) : Prop where
  name : Ascii t.name
  record : Ascii t.recordName
  fields : ∀ f ∈ t.fields, Ascii f.name
  defaults : ∀ f ∈ t.fields, ∀ d ∈ f.default, Text.Legible d
  columns : ∀ rel ∈ t.relationships, Ascii rel.column
  members : ∀ rel ∈ t.relationships, Ascii rel.member
  targets : ∀ rel ∈ t.relationships, Ascii rel.references.table
  foreign : ∀ rel ∈ t.relationships, Text.Legible rel.references.column

namespace Table

variable {t : Table}

namespace Writable

variable (h : t.Writable)

include h

theorem insertDefault {f : Field} (hf : f ∈ t.inputFields) {d : String}
    (hd : f.insertDefault? = some d) : Text.Legible d := by
  unfold Field.insertDefault? at hd
  split at hd
  · exact h.defaults f (List.mem_filter.mp hf).1 d hd
  · cases hd

/-- A text of characters that are at hand for statements is legible, and so all statements are. -/
theorem legible {s : String} (hs : Text.Each t.Supplies s) : Text.Legible s := by
  intro c hc
  rcases hs c hc with hprinted | ⟨given, hgiven, hc⟩
  · rw [Text.isAsciiPrinted, Bool.and_eq_true, decide_eq_true_eq, decide_eq_true_eq] at hprinted
    exact Text.isHalf_of_ascii (by omega)
  · have hlegible : ∀ g ∈ t.givenTexts, Text.Legible g := by
      simp only [givenTexts, List.cons_append, List.forall_mem_cons, List.forall_mem_append, fieldNames,
        List.forall_mem_map, List.mem_filterMap, forall_exists_index, and_imp]
      exact ⟨h.name.legible, fun f hf => (h.fields f hf).legible, fun d f hf hd => h.insertDefault hf hd⟩
    exact hlegible given hgiven c hc

end Writable

end Table

end Schema

namespace Code

end Code

namespace Schema

theorem Table.Writable.variantName {t : Table} (h : t.Writable) {rel : Relationship}
    (hrel : rel ∈ t.relationships) : Text.Legible (t.variantName rel) := by
  have hassociation : Text.Legible (if rel.isMany && !rel.isReverse then Naming.pascal rel.member
      else Naming.association rel.column rel.references.table rel.isMany) := by
    split
    · exact (Naming.ascii_pascal (h.members rel hrel)).legible
    · exact (Naming.ascii_association _ (h.columns rel hrel) (h.targets rel hrel)).legible
  simp only [Table.variantName, legible_append, legible_toString, h.record.legible, hassociation,
    and_true, true_and]
  exact legible_ofList (by decide)

theorem Table.Writable.allRelationsName {t : Table} (h : t.Writable) :
    Text.Legible t.allRelationsName := by
  simp only [Table.allRelationsName, legible_append, legible_toString, h.record.legible, true_and]
  exact legible_ofList (by decide)

end Schema

end TableLoom
