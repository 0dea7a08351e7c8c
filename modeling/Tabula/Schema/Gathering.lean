import Tabula.Schema.Extraction

/-! # Extraction in one pass

How the annotations of a model are read field by field, with a single list of errors to which every
field adds. A field looks at the length of the list before and after it is read, and gives a column
only if the list has not grown; the errors of the fields before it are in the same list. The pass
yields what `Declaration.extract` says.
-/

namespace Tabula

/-- A part of the pass, which adds to the errors found so far. -/
abbrev Pass : Type → Type :=
  StateM (List ExtractionError)

/-- What the annotated texts of a field mean, as far as they have a meaning. -/
structure Meanings where
  storage : Option StorageType
  policy : Option ConflictPolicy
  collation : Option Collation
  action : Option DeleteAction
  capabilities : Option Capabilities

namespace FieldDeclaration

variable (model : String) (f : FieldDeclaration)

/-- Where the fault was found. -/
def error (fault : FieldFault) : ExtractionError :=
  ⟨model, f.name, fault⟩

/-- Reports a fault of the field. -/
def report (fault : FieldFault) : Pass Unit :=
  modify (· ++ [f.error model fault])

/-- Reports a fault of the field if it was found. -/
def reportIf (found : Bool) (fault : FieldFault) : Pass Unit :=
  if found then f.report model fault else pure ()

/-- The meaning of a text that is there. A text without meaning is reported. -/
def readText {α : Type} (parse? : String → Option α) (fault : String → FieldFault)
    (raw : String) : Pass (Option α) := do
  f.reportIf model (parse? raw).isNone (fault raw)
  return parse? raw

def readStorage : Pass (Option StorageType) :=
  match Text.given? f.notes.storageType with
  | some raw => f.readText model StorageType.parse? .invalidStorage raw
  | none => do
    let inferred := StorageType.infer? (splitOption f.bareType).2
    f.reportIf model inferred.isNone (.unsupportedType f.typeText)
    return inferred

/-- The meaning of a text that may be absent, which then means something too. -/
def readOptional {α : Type} (parse? : String → Option α) (fault : String → FieldFault)
    (absent : Option α) : Option String → Pass (Option α)
  | some raw => f.readText model parse? fault raw
  | none => return absent

/-- Looks for contradictions of the annotations, those of a key first. -/
def readConflicts (storage : Option StorageType) : Pass Unit := do
  match f.key with
  | some key =>
    f.reportIf model f.nullable (.conflicting .optionalKey)
    f.reportIf model (key.autoincrement && storage.any (· != .integer))
      (.conflicting .autoincrement)
    f.reportIf model f.references?.isSome (.conflicting .referencingKey)
  | none => pure ()
  f.reportIf model (f.references?.isNone && (Text.given? f.notes.onDelete).isSome)
    (.conflicting .actionAlone)

/-- Adds the set of a name to those found. Every name without a set is reported. -/
def readName (found : Option Capabilities) (name : String) : Pass (Option Capabilities) := do
  let set ← f.readText model Capabilities.parse? .unknownCapability name
  return found.bind fun before => set.map before.union

def readCapabilities (storage : StorageType) : Pass (Option Capabilities) :=
  let names := f.capabilityNames
  let wantsAuto := names.any namesAuto
  if names.isEmpty || (wantsAuto && names.length == 1) then
    return some (.automatic storage f.nullable)
  else if wantsAuto then do
    f.report model (.conflicting .mixedCapabilities)
    return none
  else names.foldlM (f.readName model) (some .none)

/-- Reads all annotated texts. The names of capabilities are read even without a storage class, for
which another stands in. -/
def readMeanings : Pass Meanings := do
  let storage ← f.readStorage model
  let policy ← f.readOptional model ConflictPolicy.parse? .invalidPolicy (some .unset)
    f.writtenPolicy?
  let collation ← f.readOptional model Collation.parse? .invalidCollation (some .binary)
    (Text.given? f.notes.collate)
  let action ← f.readOptional model DeleteAction.parse? .invalidAction none
    (Text.given? f.notes.onDelete)
  f.readConflicts model storage
  let capabilities ← f.readCapabilities model (storage.getD .blob)
  return ⟨storage, policy, collation, action, capabilities⟩

/-- The column with its association, if everything that it needs has a meaning. -/
def column? (m : Meanings) : Option (Column × Option Association) := do
  let column := { f.toColumn (← m.storage) (← m.policy) (← m.collation) with
    capabilities := ← m.capabilities }
  return (column, f.references?.map fun target => ⟨column.name, target, m.action⟩)

/-- Reads the field. It has no column if anything was reported meanwhile. -/
def read : Pass (Option (Column × Option Association)) := do
  let before ← get
  let meanings ← f.readMeanings model
  let after ← get
  return if before.length < after.length then none else f.column? meanings

end FieldDeclaration

/-- The table with the column of one more field. -/
def Table.addField (model : String) (t : Table) (f : FieldDeclaration) : Pass Table := do
  match ← f.read model with
  | some (column, association) =>
    return { t with
      columns := t.columns ++ [column]
      associations := t.associations ++ association.toList }
  | none => return t

/-- The table of a model as the pass gathers it, or every error that it met. -/
def Declaration.gather (d : Declaration) : Except (List ExtractionError) Table :=
  let fresh : Table := { name := d.tableName, model := d.name, columns := [], associations := [] }
  match (d.mapped.foldlM (Table.addField d.name) fresh).run [] with
  | (t, []) => .ok t
  | (_, errors) => .error errors

end Tabula
