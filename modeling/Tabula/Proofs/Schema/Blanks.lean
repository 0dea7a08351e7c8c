import Tabula.Proofs.Schema.Extraction

/-! # Blanks in types

What is extracted from a model does not depend on the blanks in the types of its fields: the same
table is extracted without them, and the errors are the same but for the type that they quote
(`Tabula.Declaration.extract_bare`).
-/

namespace Tabula

namespace Text

private theorem removeBlanks_removeBlanks (s : String) :
    removeBlanks (removeBlanks s) = removeBlanks s := by
  simp [removeBlanks, List.filter_filter]

end Text

/-- The fault with the type that it quotes without blanks. -/
def FieldFault.bare : FieldFault → FieldFault
  | unsupportedType typeText => unsupportedType (Text.removeBlanks typeText)
  | fault => fault

/-- The error with the type that it quotes without blanks. -/
def ExtractionError.bare (e : ExtractionError) : ExtractionError :=
  { e with fault := e.fault.bare }

/-- The field with its type without blanks. -/
def FieldDeclaration.bare (f : FieldDeclaration) : FieldDeclaration :=
  { f with typeText := f.bareType }

/-- The model with its types without blanks. -/
def Declaration.bare (d : Declaration) : Declaration :=
  { d with fields := d.fields.map (·.bare) }

namespace FieldDeclaration

variable (f : FieldDeclaration)

private theorem bareType_bare : f.bare.bareType = f.bareType :=
  Text.removeBlanks_removeBlanks f.typeText

private theorem nullable_bare : f.bare.nullable = f.nullable := by
  rw [nullable, bareType_bare, ← nullable]

private theorem storage?_bare : f.bare.storage? = f.storage? := by
  rw [storage?, bareType_bare]
  rfl

private theorem storageFaults_bare : f.bare.storageFaults = f.storageFaults.map (·.bare) := by
  have notes : f.bare.notes = f.notes := rfl
  rw [storageFaults, storageFaults, storage?_bare, notes]
  cases f.storage? with
  | some storage => rfl
  | none =>
      cases Text.given? f.notes.storageType with
      | some raw => rfl
      | none => rfl

private theorem faultsOf_bare {α : Type} {parse? : String → Option α} (fault : String → FieldFault)
    (keeps : ∀ raw, (fault raw).bare = fault raw) (raw : Option String) :
    (faultsOf parse? fault raw).map (·.bare) = faultsOf parse? fault raw := by
  cases raw with
  | none => rfl
  | some raw =>
      simp only [faultsOf]
      split
      · rw [List.map_singleton, keeps]
      · rfl

private theorem conflicts_bare : f.bare.conflicts = f.conflicts := by
  have key : f.bare.key = f.key := rfl
  have notes : f.bare.notes = f.notes := rfl
  have references : f.bare.references? = f.references? := rfl
  simp only [conflicts, nullable_bare, storage?_bare, key, notes, references]

private theorem capabilityFaults_bare : f.capabilityFaults.map (·.bare) = f.capabilityFaults := by
  simp only [capabilityFaults]
  split
  · split <;> rfl
  · rw [List.map_map]
    rfl

/-- The faults are the same but for the type that they quote. -/
theorem faults_bare : f.bare.faults = f.faults.map (·.bare) := by
  have policy : f.bare.writtenPolicy? = f.writtenPolicy? := rfl
  have notes : f.bare.notes = f.notes := rfl
  have capabilities : f.bare.capabilityFaults = f.capabilityFaults := rfl
  have conflicts : (f.conflicts.map FieldFault.conflicting).map (·.bare) =
      f.conflicts.map .conflicting := by
    rw [List.map_map]
    rfl
  simp only [faults, List.map_append, storageFaults_bare, policy, notes, conflicts_bare,
    capabilities, conflicts, capabilityFaults_bare,
    faultsOf_bare .invalidPolicy (fun _ => rfl),
    faultsOf_bare .invalidCollation (fun _ => rfl),
    faultsOf_bare .invalidAction (fun _ => rfl)]

private theorem toColumn_bare : f.bare.toColumn = f.toColumn := by
  funext storage policy collation
  have capabilities : f.bare.capabilities storage = f.capabilities storage := by
    have names : f.bare.capabilityNames = f.capabilityNames := rfl
    rw [FieldDeclaration.capabilities, FieldDeclaration.capabilities, names, nullable_bare]
  simp only [toColumn, capabilities, nullable_bare, bareType_bare]
  rfl

private theorem toOption_extract_bare : f.bare.extract.toOption = f.extract.toOption := by
  have policy : f.bare.policy? = f.policy? := rfl
  have collation : f.bare.collation? = f.collation? := rfl
  rw [extract, extract, faults_bare, storage?_bare, policy, collation, toColumn_bare]
  cases f.faults with
  | cons fault faults => rfl
  | nil =>
      cases f.storage? <;> cases f.policy? <;> cases f.collation? <;> rfl

end FieldDeclaration

namespace Declaration

variable (d : Declaration)

private theorem mapped_bare : d.bare.mapped = d.mapped.map (·.bare) := by
  rw [mapped, mapped, bare, List.filter_map]
  rfl

private theorem extractionErrors_bare :
    d.bare.extractionErrors = d.extractionErrors.map (·.bare) := by
  rw [extractionErrors, extractionErrors, mapped_bare, List.flatMap_map, List.map_flatMap]
  simp only [FieldDeclaration.faults_bare, List.map_map]
  rfl

/-- Blanks in types play no part in what is extracted, but in what the errors quote. -/
theorem extract_bare : d.bare.extract = d.extract.mapError (·.map (·.bare)) := by
  rw [extract, extract, extractionErrors_bare, mapped_bare]
  cases d.extractionErrors with
  | nil =>
      simp only [List.map_nil, List.filterMap_map, Function.comp_def,
        FieldDeclaration.toOption_extract_bare]
      rfl
  | cons e errors => rfl

end Declaration

end Tabula
