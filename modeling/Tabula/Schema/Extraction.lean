import Tabula.Schema.Declaration
import Tabula.Schema.Table
import Tabula.Value.FieldType

/-! # Extraction of tables

The table of a model: one column for each mapped field, and an association for each of them that
references a table. Every fault of a field is reported, and no field has a say in the faults of
another: a model has a table exactly when none of its mapped fields has a fault.
-/

namespace Tabula

/-- Two annotations of a field that contradict each other. -/
inductive AnnotationConflict where
  /-- The key may be absent. -/
  | optionalKey
  /-- Keys that are never assigned again, of another storage class than whole numbers. -/
  | autoincrement
  /-- The key references a table. -/
  | referencingKey
  /-- A delete action without a referenced table. -/
  | actionAlone
  /-- Capabilities chosen by the storage class and by name at once. -/
  | mixedCapabilities
deriving DecidableEq

/-- The text of the contradiction. -/
def AnnotationConflict.reason : AnnotationConflict → String
  | optionalKey => "a primary key cannot be an `Option`"
  | autoincrement => "`autoincrement` requires an INTEGER primary key"
  | referencingKey => "a primary key cannot reference another table"
  | actionAlone => "`on_delete` requires `references`"
  | mixedCapabilities => "`auto` helpers cannot be combined with explicit helper names"

/-- What is wrong with the annotations of a field. -/
inductive FieldFault where
  /-- The type has no storage class and none is written. -/
  | unsupportedType (typeText : String)
  | invalidStorage (value : String)
  | invalidPolicy (value : String)
  | invalidCollation (value : String)
  | unknownCapability (value : String)
  | invalidAction (value : String)
  | conflicting (conflict : AnnotationConflict)
deriving DecidableEq

/-- The text that the fault quotes. -/
def FieldFault.detail : FieldFault → String
  | unsupportedType value | invalidStorage value | invalidPolicy value | invalidCollation value
  | unknownCapability value | invalidAction value => value
  | conflicting conflict => conflict.reason

/-- A fault with the place where it was found. -/
structure ExtractionError where
  model : String
  field : String
  /-- What is wrong with it. -/
  fault : FieldFault
deriving DecidableEq

/-- The message of an error, with the place of its fault. -/
def ExtractionError.message (e : ExtractionError) : String :=
  let place := e.model ++ "." ++ e.field
  match e.fault with
  | .unsupportedType value =>
    "Unsupported field type `" ++ value ++ "` for " ++ place ++ "; set `storage_type` explicitly"
  | .invalidStorage value => "Invalid storage type \"" ++ value ++ "\" for " ++ place
  | .invalidPolicy value => "Invalid on_conflict \"" ++ value ++ "\" for " ++ place
  | .invalidCollation value => "Invalid collate \"" ++ value ++ "\" for " ++ place
  | .unknownCapability value => "Unknown helper \"" ++ value ++ "\" for " ++ place
  | .invalidAction value => "Invalid on_delete \"" ++ value ++ "\" for " ++ place
  | .conflicting conflict => "Conflicting annotations on " ++ place ++ ": " ++ conflict.reason

namespace FieldDeclaration

variable (f : FieldDeclaration)

/-- What is written about the column, if only the key is annotated nothing. -/
def notes : ColumnNotes :=
  f.column.getD .empty

/-- The name of the column of a field. -/
def columnName : String :=
  (Text.given? f.notes.name).getD f.name

/-- The type expression without blanks. -/
def bareType : String :=
  Text.removeBlanks f.typeText

/-- Whether the field may be empty. -/
def nullable : Bool :=
  (splitOption f.bareType).1

/-- The storage class: the one written, or else that of the type of what is there. -/
def storage? : Option StorageType :=
  match Text.given? f.notes.storageType with
  | some raw => StorageType.parse? raw
  | none => StorageType.infer? (splitOption f.bareType).2

/-- The fault of a field without a storage class. -/
def storageFaults : List FieldFault :=
  match f.storage?, Text.given? f.notes.storageType with
  | some _, _ => []
  | none, some raw => [.invalidStorage raw]
  | none, none => [.unsupportedType f.typeText]

/-- The conflict policy as written; that of the key goes before that of the column. -/
def writtenPolicy? : Option String :=
  (Text.given? (f.key.bind (·.onConflict))).or (Text.given? f.notes.onConflict)

/-- The meaning of an optional text, with a meaning for its absence. -/
def meaning? {α : Type} (parse? : String → Option α) (absent : α) : Option String → Option α
  | none => some absent
  | some raw => parse? raw

/-- The fault of a text without a meaning. -/
def faultsOf {α : Type} (parse? : String → Option α) (fault : String → FieldFault) :
    Option String → List FieldFault
  | none => []
  | some raw => if (parse? raw).isNone then [fault raw] else []

def policy? : Option ConflictPolicy :=
  meaning? ConflictPolicy.parse? .unset f.writtenPolicy?

def collation? : Option Collation :=
  meaning? Collation.parse? .binary (Text.given? f.notes.collate)

/-- The delete action; one that cannot be read counts as absent here and as a fault elsewhere. -/
def action? : Option DeleteAction :=
  (Text.given? f.notes.onDelete).bind DeleteAction.parse?

/-- The referenced table. -/
def references? : Option String :=
  Text.given? f.notes.references

/-- The contradictions between annotations other than the names of capabilities. -/
def conflicts : List AnnotationConflict :=
  let ofKey :=
    match f.key with
    | none => []
    | some key =>
      (if f.nullable then [.optionalKey] else []) ++
      (if key.autoincrement && f.storage?.any (· != .integer) then [.autoincrement] else []) ++
      (if f.references?.isSome then [.referencingKey] else [])
  ofKey ++
    if f.references?.isNone && (Text.given? f.notes.onDelete).isSome then [.actionAlone]
    else []

/-- The names of capabilities, trimmed and without blank ones. -/
def capabilityNames : List String :=
  ((f.notes.capabilities.getD []).map Text.trim).filter (!·.isEmpty)

/-- Whether a name leaves the choice to the storage class. -/
def namesAuto (name : String) : Bool :=
  Text.sameName name "auto"

/-- The faults of the names of capabilities. -/
def capabilityFaults : List FieldFault :=
  let names := f.capabilityNames
  if names.any namesAuto then
    if names.length = 1 then [] else [.conflicting .mixedCapabilities]
  else (names.filter fun name => (Capabilities.parse? name).isNone).map .unknownCapability

/-- What the column offers. -/
def capabilities (storage : StorageType) : Capabilities :=
  let names := f.capabilityNames
  if names.isEmpty || names.any namesAuto then .automatic storage f.nullable
  else (names.filterMap Capabilities.parse?).foldl .union .none

/-- Every fault of the field, in the order of the report. -/
def faults : List FieldFault :=
  f.storageFaults ++
  faultsOf ConflictPolicy.parse? .invalidPolicy f.writtenPolicy? ++
  faultsOf Collation.parse? .invalidCollation (Text.given? f.notes.collate) ++
  faultsOf DeleteAction.parse? .invalidAction (Text.given? f.notes.onDelete) ++
  f.conflicts.map .conflicting ++
  f.capabilityFaults

/-- The column of the field, given what its texts mean. -/
def toColumn (storage : StorageType) (policy : ConflictPolicy) (collation : Collation) :
    Column where
  name := f.columnName
  field := f.name
  typeText := f.bareType
  storage := storage
  nullable := f.nullable
  primaryKey := f.key.isSome
  auto := f.key.any (·.auto)
  autoincrement := f.key.any (·.autoincrement)
  indexed := f.notes.indexed
  unique := f.notes.unique
  onConflict := policy
  collation := collation
  defaultExpr := Text.given? f.notes.defaultExpr
  capabilities := f.capabilities storage

/-- The association of the field. -/
def association? : Option Association :=
  f.references?.map fun target => ⟨f.columnName, target, f.action?⟩

/-- The column of the field, or every fault of it. -/
def extract : Except (List FieldFault) Column :=
  match f.faults, f.storage?, f.policy?, f.collation? with
  | [], some storage, some policy, some collation => .ok (f.toColumn storage policy collation)
  | faults, _, _, _ => .error faults

end FieldDeclaration

namespace Declaration

/-- Every fault of the mapped fields, in the order of the fields. -/
def extractionErrors (d : Declaration) : List ExtractionError :=
  d.mapped.flatMap fun f => f.faults.map fun fault => ⟨d.name, f.name, fault⟩

/-- The table of the model, or every fault of its mapped fields. -/
def extract (d : Declaration) : Except (List ExtractionError) Table :=
  match d.extractionErrors with
  | [] => .ok {
      name := d.tableName
      model := d.name
      columns := d.mapped.filterMap fun f => f.extract.toOption
      associations := d.mapped.filterMap (·.association?) }
  | errors => .error errors

end Declaration

end Tabula
