import Tabula.Proofs.Schema.Extraction
import Tabula.Schema.Gathering

/-! # What the pass gathers

Each part of the pass adds the errors of certain faults to those found before, and what it yields
does not depend on them (`Tabula.FieldDeclaration.Adds`). So a field has no part in what is read of
another, and one that is left without a column has added an error
(`Tabula.FieldDeclaration.run_read`). The pass over all fields yields what is extracted from each of
them alone (`Tabula.Declaration.gather_eq_extract`).
-/

namespace Tabula

namespace FieldDeclaration

variable {α β : Type} {model : String} {f : FieldDeclaration}

/-- The part yields `x` and adds errors for the faults, whatever errors were found before. -/
def Adds (model : String) (f : FieldDeclaration) (p : Pass α) (x : α) (faults : List FieldFault) :
    Prop :=
  ∀ errors, p.run errors = pure (x, errors ++ faults.map (f.error model))

/-- What yields a value at once adds no error. -/
theorem Adds.pure (x : α) : f.Adds model (pure x) x [] := by
  intro errors
  rw [List.map_nil, List.append_nil]
  rfl

/-- One part after the other adds the errors of both, those of the first one first. -/
theorem Adds.bind {p : Pass α} {next : α → Pass β} {x : α} {y : β}
    {faults more : List FieldFault} (first : f.Adds model p x faults)
    (second : f.Adds model (next x) y more) : f.Adds model (p >>= next) y (faults ++ more) := by
  intro errors
  rw [StateT.run_bind, first errors, pure_bind, second, List.map_append, List.append_assoc]

private theorem Adds.returning {p : Pass α} {next : α → Pass β} {x : α} {y : β}
    {faults : List FieldFault} (first : f.Adds model p x faults)
    (second : f.Adds model (next x) y []) : f.Adds model (p >>= next) y faults := by
  have added := first.bind second
  rwa [List.append_nil] at added

variable (model f)

private theorem adds_report (fault : FieldFault) : f.Adds model (f.report model fault) () [fault] :=
  fun _ => rfl

private theorem adds_reportIf (found : Bool) (fault : FieldFault) :
    f.Adds model (f.reportIf model found fault) () (if found then [fault] else []) := by
  cases found with
  | false => exact Adds.pure ()
  | true => exact adds_report model f fault

private theorem adds_readText (parse? : String → Option α) (fault : String → FieldFault)
    (raw : String) : f.Adds model (f.readText model parse? fault raw) (parse? raw)
      (faultsOf parse? fault (some raw)) :=
  (adds_reportIf model f (parse? raw).isNone (fault raw)).returning (Adds.pure (parse? raw))

private theorem adds_readStorage :
    f.Adds model (f.readStorage model) f.storage? f.storageFaults := by
  unfold readStorage storageFaults storage?
  cases Text.given? f.notes.storageType with
  | some raw =>
      have added := adds_readText model f StorageType.parse? .invalidStorage raw
      dsimp only
      cases parsed : StorageType.parse? raw <;> simpa [faultsOf, parsed] using added
  | none =>
      dsimp only
      cases StorageType.infer? (splitOption f.bareType).2 with
      | none => exact (adds_reportIf model f true _).returning (Adds.pure none)
      | some storage => exact (adds_reportIf model f false _).returning (Adds.pure (some storage))

private theorem adds_readOptional (parse? : String → Option α) (fault : String → FieldFault)
    (absent : Option α) (raw : Option String) :
    f.Adds model (f.readOptional model parse? fault absent raw) (raw.elim absent parse?)
      (faultsOf parse? fault raw) := by
  cases raw with
  | none => exact Adds.pure absent
  | some text => exact adds_readText model f parse? fault text

private theorem adds_conflictIf (found : Bool) (conflict : AnnotationConflict) :
    f.Adds model (f.reportIf model found (.conflicting conflict)) ()
      ((if found then [conflict] else []).map .conflicting) := by
  cases found with
  | false => exact Adds.pure ()
  | true => exact adds_report model f (.conflicting conflict)

/-- Each conflict of the storage class with the annotations is an error. -/
theorem adds_readConflicts :
    f.Adds model (f.readConflicts model f.storage?) () (f.conflicts.map .conflicting) := by
  have alone := adds_conflictIf model f
    (f.references?.isNone && (Text.given? f.notes.onDelete).isSome) .actionAlone
  unfold readConflicts conflicts
  cases f.key with
  | none =>
      dsimp only
      rw [List.nil_append]
      exact alone
  | some key =>
      dsimp only
      rw [List.map_append, List.map_append, List.map_append, List.append_assoc, List.append_assoc]
      refine (adds_conflictIf model f f.nullable .optionalKey).bind ?_
      refine (adds_conflictIf model f _ .autoincrement).bind ?_
      refine (adds_conflictIf model f f.references?.isSome .referencingKey).bind ?_
      exact alone

private theorem adds_readName (found : Option Capabilities) (name : String) :
    f.Adds model (f.readName model found name)
      (found.bind fun before => (Capabilities.parse? name).map before.union)
      (faultsOf Capabilities.parse? .unknownCapability (some name)) :=
  (adds_readText model f Capabilities.parse? .unknownCapability name).returning (Adds.pure _)

/-- The names of capabilities are read one after the other, and one that names no set leaves nothing
of what the others name. -/
theorem adds_readNames (names : List String) (found : Option Capabilities) :
    f.Adds model (names.foldlM (f.readName model) found)
      (if names.all fun name => (Capabilities.parse? name).isSome then
        found.map fun before => (names.filterMap Capabilities.parse?).foldl .union before
      else none)
      ((names.filter fun name => (Capabilities.parse? name).isNone).map .unknownCapability) := by
  induction names generalizing found with
  | nil =>
      have same : found.map (fun before => before) = found := Option.map_id_fun' ▸ rfl
      simpa [same] using Adds.pure found
  | cons name names ih =>
      have added : f.Adds model
          (f.readName model found name >>= fun next => names.foldlM (f.readName model) next) _ _ :=
        (adds_readName model f found name).bind (ih _)
      rw [List.foldlM_cons]
      cases parsed : Capabilities.parse? name with
      | none => simpa [faultsOf, parsed] using added
      | some set =>
        cases found <;> simpa [faultsOf, parsed] using added

/-- Capabilities are read just if none of their names has a fault. -/
theorem adds_readCapabilities (storage : StorageType) :
    f.Adds model (f.readCapabilities model storage)
      (if f.capabilityFaults = [] then some (f.capabilities storage) else none)
      f.capabilityFaults := by
  unfold readCapabilities capabilityFaults capabilities
  by_cases auto : f.capabilityNames.any namesAuto = true
  · by_cases alone : f.capabilityNames.length = 1
    · simpa [auto, alone] using Adds.pure _
    · have named : f.capabilityNames.isEmpty = false := by
        cases names : f.capabilityNames with
        | nil => simp [names] at auto
        | cons name names => rfl
      have mixed : f.Adds model
          (f.report model (.conflicting .mixedCapabilities) >>= fun _ =>
            pure (none : Option Capabilities)) none [.conflicting .mixedCapabilities] :=
        (adds_report model f (.conflicting .mixedCapabilities)).returning (Adds.pure none)
      simpa [auto, alone, named] using mixed
  · by_cases none : f.capabilityNames = []
    · simpa [none] using Adds.pure _
    · have added := adds_readNames model f f.capabilityNames (some .none)
      have known : (f.capabilityNames.all fun name => (Capabilities.parse? name).isSome) = true ↔
          (f.capabilityNames.filter fun name => (Capabilities.parse? name).isNone).map
            FieldFault.unknownCapability = [] := by
        simp [List.filter_eq_nil_iff, Option.isSome_iff_ne_none]
      simp only [known, Option.map_some] at added
      simpa [auto, none] using added

/-- An optional text has the meaning of its absence, or that which it is parsed as. -/
theorem elim_eq_meaning? (parse? : String → Option α) (absent : α) (raw : Option String) :
    raw.elim (some absent) parse? = meaning? parse? absent raw := by
  cases raw <;> rfl

/-- All annotations of a field are read, and every fault among them is an error. -/
theorem adds_readMeanings :
    f.Adds model (f.readMeanings model)
      ⟨f.storage?, f.policy?, f.collation?, f.action?,
        if f.capabilityFaults = [] then some (f.capabilities (f.storage?.getD .blob)) else none⟩
      f.faults := by
  have policy := adds_readOptional model f ConflictPolicy.parse? .invalidPolicy (some .unset)
    f.writtenPolicy?
  have collation := adds_readOptional model f Collation.parse? .invalidCollation (some .binary)
    (Text.given? f.notes.collate)
  have action := adds_readOptional model f DeleteAction.parse? .invalidAction none
    (Text.given? f.notes.onDelete)
  have bound : (Text.given? f.notes.onDelete).elim none DeleteAction.parse? = f.action? := by
    unfold action?
    cases Text.given? f.notes.onDelete <;> rfl
  rw [elim_eq_meaning?] at policy collation
  rw [bound] at action
  unfold readMeanings faults
  simp only [List.append_assoc]
  refine (adds_readStorage model f).bind (policy.bind (collation.bind (action.bind ?_)))
  exact (adds_readConflicts model f).bind
    ((adds_readCapabilities model f _).returning (Adds.pure _))

private theorem column?_of_parts (storage : StorageType) (policy : ConflictPolicy)
    (collation : Collation) : f.column? ⟨some storage, some policy, some collation, f.action?,
        some (f.capabilities storage)⟩ =
      some (f.toColumn storage policy collation, f.association?) := by
  simp only [column?, toColumn, association?, Option.bind_eq_bind, Option.bind_some, Option.pure_def]

/-- What the pass reads of a field is its column with its association, if it has no fault, and what it
adds are the errors of the faults. -/
theorem run_read (errors : List ExtractionError) :
    (f.read model).run errors =
      pure (f.extract.toOption.map fun column => (column, f.association?),
        errors ++ f.faults.map (f.error model)) := by
  unfold read
  simp only [StateT.run_bind, StateT.run_get, pure_bind, StateT.run_pure,
    adds_readMeanings model f errors, List.length_append, List.length_map]
  cases outcome : f.extract with
  | ok column =>
      obtain ⟨faultless, storage, policy, collation, storageIs, policyIs, collationIs, rfl⟩ :=
        parts_of_extract outcome
      have capable : f.capabilityFaults = [] := by
        simp only [faults, List.append_eq_nil_iff] at faultless
        exact faultless.2
      have same := f.column?_of_parts storage policy collation
      simp only [faultless, List.length_nil, Nat.add_zero, Nat.lt_irrefl, if_false, storageIs,
        policyIs, collationIs, capable, if_true, Option.getD_some, same, Except.toOption,
        Option.map_some]
  | error found =>
      -- The count of errors tells a field with faults, however many there were before.
      have faulty : f.faults ≠ [] := by
        intro faultless
        obtain ⟨column, extracted⟩ := extract_of_faultless faultless
        rw [extracted] at outcome
        cases outcome
      have grown : errors.length < errors.length + f.faults.length :=
        Nat.lt_add_of_pos_right (List.length_pos_iff.mpr faulty)
      rw [if_pos grown]
      rfl

end FieldDeclaration

namespace Table

private theorem run_addField (model : String) (t : Table) (f : FieldDeclaration)
    (errors : List ExtractionError) :
    (t.addField model f).run errors =
      pure ({ t with
        columns := t.columns ++ f.extract.toOption.toList
        associations := t.associations ++
          (f.extract.toOption.bind fun _ => f.association?).toList },
        errors ++ f.faults.map (f.error model)) := by
  unfold addField
  rw [StateT.run_bind, f.run_read, pure_bind]
  cases f.extract with
  | ok column => rfl
  | error found => simp [Except.toOption]

/-- Fields add their columns, associations and errors one after the other. -/
theorem run_addFields (model : String) (fields : List FieldDeclaration) (t : Table)
    (errors : List ExtractionError) :
    (fields.foldlM (addField model) t).run errors =
      pure ({ t with
        columns := t.columns ++ fields.filterMap (·.extract.toOption)
        associations := t.associations ++
          fields.filterMap fun f => f.extract.toOption.bind fun _ => f.association? },
        errors ++ fields.flatMap fun f => f.faults.map (f.error model)) := by
  -- Over the fields, from whatever table and errors the pass has come to.
  induction fields generalizing t errors with
  | nil => simp
  | cons f fields ih =>
      rw [List.foldlM_cons, StateT.run_bind, run_addField, pure_bind, ih]
      simp only [List.filterMap_cons, List.flatMap_cons, List.append_assoc]
      cases f.extract.toOption with
      | none => rfl
      | some column => cases f.association? <;> simp

end Table

namespace Declaration

/-- **One pass is enough.** Reading the fields one after another into one list of errors yields the
table of the model, or every fault of each of its mapped fields. -/
theorem gather_eq_extract (d : Declaration) : d.gather = d.extract := by
  have pass := Table.run_addFields d.name d.mapped
    { name := d.tableName, model := d.name, columns := [], associations := [] } []
  simp only [List.nil_append] at pass
  have errors : (d.mapped.flatMap fun f => f.faults.map (f.error d.name)) = d.extractionErrors :=
    rfl
  rw [errors] at pass
  unfold gather extract
  dsimp only
  rw [pass]
  cases found : d.extractionErrors with
  | cons e more => rfl
  | nil =>
      have faultless : ∀ f ∈ d.mapped, f.faults = [] := fun f member =>
        List.map_eq_nil_iff.mp (List.flatMap_eq_nil_iff.mp found f member)
      have associations :
          (d.mapped.filterMap fun f => f.extract.toOption.bind fun _ => f.association?) =
            d.mapped.filterMap (·.association?) := by
        refine List.filterMap_congr fun f member => ?_
        obtain ⟨column, extracted⟩ := FieldDeclaration.extract_of_faultless (faultless f member)
        rw [extracted]
        rfl
      rw [associations]
      rfl

end Declaration

end Tabula
