import TableLoom.Proofs.Check.Entries
import TableLoom.Schema.Registry

/-!
What is read from data, part by part: a field, an index, a relationship or a fragment is read exactly if
each of its parts is, and the parts alone make it what it is.
-/

namespace TableLoom.Schema

open Check (Checked)

variable {entries : List (Value × Value)}

theorem readFieldEntries_eq_fits {f : Field} : readFieldEntries entries = .fits f ↔
    Check.part entries "name" Check.name = .fits f.name ∧
    Check.part entries "type" (Check.oneOf FieldType.all FieldType.name) = .fits f.type ∧
    readNullable entries = .fits f.nullable ∧
    Check.partOr entries "primary_key" false Check.bool = .fits f.primaryKey ∧
    Check.partOr entries "unique" false Check.bool = .fits f.unique ∧
    Check.partOr entries "default" none (Check.optional Check.text) = .fits f.default ∧
    readMode entries = .fits f.inputMode ∧
    Check.partOr entries "redacted" false Check.bool = .fits f.redacted ∧
    Check.noOthers fieldKeys entries = .fits () := by
  unfold readFieldEntries
  simp only [Checked.seqLeft_eq_fits, Checked.seq_eq_fits, Checked.map_eq_fits]
  constructor
  · rintro ⟨⟨_, redacted, ⟨_, mode, ⟨_, default, ⟨_, unique, ⟨_, key, ⟨_, flag, ⟨_, type, ⟨name, hname,
      rfl⟩, htype, rfl⟩, hflag, rfl⟩, hkey, rfl⟩, hunique, rfl⟩, hdefault, rfl⟩, hmode, rfl⟩, hredacted,
      rfl⟩, others, hothers⟩
    exact ⟨hname, htype, hflag, hkey, hunique, hdefault, hmode, hredacted, hothers⟩
  · rintro ⟨hname, htype, hflag, hkey, hunique, hdefault, hmode, hredacted, hothers⟩
    exact ⟨⟨_, _, ⟨_, _, ⟨_, _, ⟨_, _, ⟨_, _, ⟨_, _, ⟨_, _, ⟨_, hname, rfl⟩, htype, rfl⟩, hflag, rfl⟩,
      hkey, rfl⟩, hunique, rfl⟩, hdefault, rfl⟩, hmode, rfl⟩, hredacted, rfl⟩, _, hothers⟩

theorem readField_map {f : Field} : readField (.map entries) = .fits f ↔
    checkNullable entries = .fits () ∧ readFieldEntries entries = .fits f := by
  unfold readField Check.record
  rw [Checked.andThen_eq_fits]
  exact ⟨fun ⟨_, hflag, hfits⟩ => ⟨hflag, hfits⟩, fun ⟨hflag, hfits⟩ => ⟨(), hflag, hfits⟩⟩

theorem readIndex_map {i : Index} : readIndex (.map entries) = .fits i ↔
    Check.part entries "name" Check.name = .fits i.name ∧
    Check.part entries "columns" readIndexColumns = .fits i.columns ∧
    Check.partOr entries "unique" false Check.bool = .fits i.unique ∧
    Check.noOthers ["name", "columns", "unique"] entries = .fits () := by
  unfold readIndex Check.record
  simp only [Checked.seqLeft_eq_fits, Checked.seq_eq_fits, Checked.map_eq_fits]
  constructor
  · rintro ⟨⟨_, unique, ⟨_, columns, ⟨name, hname, rfl⟩, hcolumns, rfl⟩, hunique, rfl⟩, _, hothers⟩
    exact ⟨hname, hcolumns, hunique, hothers⟩
  · rintro ⟨hname, hcolumns, hunique, hothers⟩
    exact ⟨⟨_, _, ⟨_, _, ⟨_, hname, rfl⟩, hcolumns, rfl⟩, hunique, rfl⟩, _, hothers⟩

theorem readReference_map {r : Reference} : readReference (.map entries) = .fits r ↔
    Check.part entries "table" Check.name = .fits r.table ∧
    Check.partOr entries "column" "id" Check.name = .fits r.column ∧
    Check.noOthers ["table", "column"] entries = .fits () := by
  unfold readReference Check.record
  simp only [Checked.seqLeft_eq_fits, Checked.seq_eq_fits, Checked.map_eq_fits]
  constructor
  · rintro ⟨⟨_, column, ⟨table, htable, rfl⟩, hcolumn, rfl⟩, _, hothers⟩
    exact ⟨htable, hcolumn, hothers⟩
  · rintro ⟨htable, hcolumn, hothers⟩
    exact ⟨⟨_, _, ⟨_, htable, rfl⟩, hcolumn, rfl⟩, _, hothers⟩

theorem readRelationship_map {r : Relationship} : readRelationship (.map entries) = .fits r ↔
    Check.partOr entries "name" none (Check.optional Check.text) = .fits r.name ∧
    Check.part entries "column" Check.name = .fits r.column ∧
    Check.part entries "references" readReference = .fits r.references ∧
    Check.partOr entries (cardinalityKey entries) .manyToOne
      (Check.oneOf Cardinality.all Cardinality.name) = .fits r.cardinality ∧
    Check.partOr entries "on_delete" .noAction (Check.oneOf Action.all Action.name) = .fits r.onDelete ∧
    Check.partOr entries "on_update" .noAction (Check.oneOf Action.all Action.name) = .fits r.onUpdate ∧
    Check.noOthers ["name", "column", "references", cardinalityKey entries, "on_delete", "on_update"]
      entries = .fits () := by
  unfold readRelationship Check.record
  simp only [Checked.seqLeft_eq_fits, Checked.seq_eq_fits, Checked.map_eq_fits]
  constructor
  · rintro ⟨⟨_, update, ⟨_, delete, ⟨_, cardinality, ⟨_, references, ⟨_, column, ⟨name, hname, rfl⟩,
      hcolumn, rfl⟩, hreferences, rfl⟩, hcardinality, rfl⟩, hdelete, rfl⟩, hupdate, rfl⟩, _, hothers⟩
    exact ⟨hname, hcolumn, hreferences, hcardinality, hdelete, hupdate, hothers⟩
  · rintro ⟨hname, hcolumn, hreferences, hcardinality, hdelete, hupdate, hothers⟩
    exact ⟨⟨_, _, ⟨_, _, ⟨_, _, ⟨_, _, ⟨_, _, ⟨_, hname, rfl⟩, hcolumn, rfl⟩, hreferences, rfl⟩,
      hcardinality, rfl⟩, hdelete, rfl⟩, hupdate, rfl⟩, _, hothers⟩

theorem readFragment_map {f : Fragment} : readFragment (.map entries) = .fits f ↔
    Check.part entries "table_name" Check.name = .fits f.table ∧
    Check.partOr entries "struct_name" none (Check.optional Check.text) = .fits f.structName ∧
    Check.partOr entries "fields" [] (Check.list readField) = .fits f.fields ∧
    Check.partOr entries "alters" [] (Check.list readField) = .fits f.alters ∧
    Check.partOr entries "indexes" [] (Check.list readIndex) = .fits f.indexes ∧
    Check.partOr entries "relationships" [] (Check.list readRelationship) = .fits f.relationships ∧
    Check.partOr entries "source" none (Check.optional Check.text) = .fits f.source ∧
    Check.noOthers ["table_name", "struct_name", "fields", "alters", "indexes", "relationships",
      "source"] entries = .fits () := by
  unfold readFragment Check.record
  simp only [Checked.seqLeft_eq_fits, Checked.seq_eq_fits, Checked.map_eq_fits]
  constructor
  · rintro ⟨⟨_, source, ⟨_, relationships, ⟨_, indexes, ⟨_, alters, ⟨_, fields, ⟨_, struct, ⟨table, htable,
      rfl⟩, hstruct, rfl⟩, hfields, rfl⟩, halters, rfl⟩, hindexes, rfl⟩, hrelationships, rfl⟩, hsource,
      rfl⟩, _, hothers⟩
    exact ⟨htable, hstruct, hfields, halters, hindexes, hrelationships, hsource, hothers⟩
  · rintro ⟨htable, hstruct, hfields, halters, hindexes, hrelationships, hsource, hothers⟩
    exact ⟨⟨_, _, ⟨_, _, ⟨_, _, ⟨_, _, ⟨_, _, ⟨_, _, ⟨_, htable, rfl⟩, hstruct, rfl⟩, hfields, rfl⟩,
      halters, rfl⟩, hindexes, rfl⟩, hrelationships, rfl⟩, hsource, rfl⟩, _, hothers⟩

end TableLoom.Schema
