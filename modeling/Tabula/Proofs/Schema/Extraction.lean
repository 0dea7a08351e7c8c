import Mathlib.Data.List.Basic
import Tabula.Schema.Build

/-! # What extraction yields

A field without a fault has a column (`Tabula.FieldDeclaration.extract_of_faultless`), so a model
without extraction errors has one for each of its mapped fields
(`Tabula.Declaration.extract_eq_ok`). Its associations are read off the same fields, and each names
the column of its own field: none is left dangling (`Tabula.Declaration.dangling?_of_extract`).
-/

namespace Tabula

namespace FieldDeclaration

variable {f : FieldDeclaration}

private theorem storage?_isSome (faultless : f.storageFaults = []) : f.storage?.isSome := by
  unfold storageFaults at faultless
  split at faultless
  · rename_i storage found
    simp only [found, Option.isSome_some]
  · cases faultless
  · cases faultless

private theorem meaning?_isSome {α : Type} {parse? : String → Option α} {absent : α}
    {fault : String → FieldFault} {raw : Option String}
    (faultless : faultsOf parse? fault raw = []) : (meaning? parse? absent raw).isSome := by
  cases raw with
  | none => rfl
  | some text =>
      simp only [faultsOf, ite_eq_right_iff, reduceCtorEq, imp_false] at faultless
      refine Option.isSome_iff_ne_none.mpr fun unread => ?_
      exact faultless (Option.isNone_iff_eq_none.mpr unread)

/-- A column is made of what the annotated texts mean, which all have a meaning. -/
theorem parts_of_extract {column : Column} (extracted : f.extract = .ok column) :
    f.faults = [] ∧ ∃ storage policy collation, f.storage? = some storage ∧
      f.policy? = some policy ∧ f.collation? = some collation ∧
      column = f.toColumn storage policy collation := by
  unfold extract at extracted
  split at extracted
  · rename_i storage policy collation faultless storageIs policyIs collationIs
    obtain rfl := Except.ok.inj extracted
    exact ⟨faultless, storage, policy, collation, storageIs, policyIs, collationIs, rfl⟩
  · cases extracted

/-- A field has a column when it has no fault, and the column has the field's column name. -/
theorem extract_eq_ok {column : Column} (extracted : f.extract = .ok column) :
    f.faults = [] ∧ column.name = f.columnName := by
  obtain ⟨faultless, storage, policy, collation, -, -, -, rfl⟩ := parts_of_extract extracted
  exact ⟨faultless, rfl⟩

/-- A column can be extracted from a field without a fault. -/
theorem extract_of_faultless (faultless : f.faults = []) : ∃ column, f.extract = .ok column := by
  have parts := faultless
  simp only [faults, List.append_eq_nil_iff] at parts
  obtain ⟨⟨⟨⟨⟨ofStorage, ofPolicy⟩, ofCollation⟩, -⟩, -⟩, -⟩ := parts
  obtain ⟨storage, storageIs⟩ := Option.isSome_iff_exists.mp (storage?_isSome ofStorage)
  obtain ⟨policy, policyIs⟩ : ∃ policy, f.policy? = some policy :=
    Option.isSome_iff_exists.mp (meaning?_isSome ofPolicy)
  obtain ⟨collation, collationIs⟩ : ∃ collation, f.collation? = some collation :=
    Option.isSome_iff_exists.mp (meaning?_isSome ofCollation)
  refine ⟨f.toColumn storage policy collation, ?_⟩
  simp only [extract, faultless, storageIs, policyIs, collationIs]

/-- Fields without faults have their columns one by one. -/
theorem map_ok_extracted {fields : List FieldDeclaration}
    (faultless : ∀ f ∈ fields, f.faults = []) :
    (fields.filterMap fun f => f.extract.toOption).map Except.ok = fields.map extract := by
  induction fields with
  | nil => rfl
  | cons f fields ih =>
      obtain ⟨column, extracted⟩ := extract_of_faultless (faultless f List.mem_cons_self)
      rw [List.filterMap_cons_some (by rw [extracted]; rfl), List.map_cons, List.map_cons,
        extracted, ih fun g member => faultless g (List.mem_cons_of_mem _ member)]

end FieldDeclaration

namespace Declaration

variable {d : Declaration} {t : Table}

/-- Extraction fails with the errors of the mapped fields, of which there is one at least. -/
theorem extract_eq_error {errors : List ExtractionError} (failed : d.extract = .error errors) :
    errors = d.extractionErrors ∧ errors ≠ [] := by
  unfold extract at failed
  split at failed
  · cases failed
  · rename_i some
    obtain rfl := Except.error.inj failed
    exact ⟨rfl, some⟩

/-- A table is extracted when no mapped field has a fault: one column for each mapped field, in
their order, and the associations of those that have one. -/
theorem extract_eq_ok (extracted : d.extract = .ok t) :
    d.extractionErrors = [] ∧ t.name = d.tableName ∧ t.model = d.name ∧
      t.columns.map Except.ok = d.mapped.map FieldDeclaration.extract ∧
      t.associations = d.mapped.filterMap (·.association?) := by
  unfold extract at extracted
  split at extracted
  · rename_i none
    obtain rfl := Except.ok.inj extracted
    refine ⟨none, rfl, rfl, FieldDeclaration.map_ok_extracted fun f member => ?_, rfl⟩
    exact List.map_eq_nil_iff.mp (List.flatMap_eq_nil_iff.mp none f member)
  · cases extracted

/-- Each column of an extracted table is that of a mapped field. -/
theorem exists_field_of_extract (extracted : d.extract = .ok t) {c : Column}
    (member : c ∈ t.columns) : ∃ f ∈ d.mapped, f.extract = .ok c := by
  obtain ⟨-, -, -, columns, -⟩ := extract_eq_ok extracted
  have ofField : .ok c ∈ d.mapped.map FieldDeclaration.extract :=
    columns ▸ List.mem_map_of_mem member
  exact List.mem_map.mp ofField

/-- Every association of an extracted table is of one of its columns. -/
theorem dangling?_of_extract (extracted : d.extract = .ok t) : t.dangling? = none := by
  obtain ⟨-, -, -, columns, associations⟩ := extract_eq_ok extracted
  refine List.find?_eq_none.mpr fun a member => ?_
  rw [associations] at member
  obtain ⟨f, mapped, ofField⟩ := List.mem_filterMap.mp member
  obtain ⟨target, -, rfl⟩ := Option.map_eq_some_iff.mp ofField
  have present : f.extract ∈ t.columns.map Except.ok := columns ▸ List.mem_map_of_mem mapped
  obtain ⟨column, ofTable, isColumn⟩ := List.mem_map.mp present
  have named := (FieldDeclaration.extract_eq_ok isColumn.symm).2
  simp only [Bool.not_eq_true', Bool.not_eq_false, List.any_eq_true, beq_iff_eq]
  exact ⟨column, ofTable, named⟩

end Declaration

end Tabula
