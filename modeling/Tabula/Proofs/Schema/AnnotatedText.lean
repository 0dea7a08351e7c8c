import Tabula.Proofs.Schema.Description

/-! # Annotated texts without a meaning

The annotations of a field hold texts that must be one of a few words. All of them but the overruled
ones are read (`Tabula.FieldDeclaration.texts_perm`), and each that is read and has no meaning is
reported once (`Tabula.Declaration.reported_texts`). A policy of the column is overruled by one of the
key; then it may be anything and there is a table all the same
(`Tabula.Declaration.extract_overruled`). Names of capabilities are overruled by one among them that
leaves the choice to the storage class, which is itself reported unless it is alone.
-/

namespace Tabula

/-- What an annotated text is about. -/
inductive TextSort where
  | storage
  | policy
  | collation
  | action
  | capability
deriving DecidableEq

/-- A text of an annotation that must be one of a few words. -/
structure AnnotatedText where
  sort : TextSort
  raw : String
deriving DecidableEq

namespace AnnotatedText

/-- Whether the text is one of the words for what it is about. -/
def hasMeaning : AnnotatedText → Bool
  | ⟨.storage, raw⟩ => (StorageType.parse? raw).isSome
  | ⟨.policy, raw⟩ => (ConflictPolicy.parse? raw).isSome
  | ⟨.collation, raw⟩ => (Collation.parse? raw).isSome
  | ⟨.action, raw⟩ => (DeleteAction.parse? raw).isSome
  | ⟨.capability, raw⟩ => FieldDeclaration.namesAuto raw || (Capabilities.parse? raw).isSome

/-- The fault of a text without meaning. -/
def fault : AnnotatedText → FieldFault
  | ⟨.storage, raw⟩ => .invalidStorage raw
  | ⟨.policy, raw⟩ => .invalidPolicy raw
  | ⟨.collation, raw⟩ => .invalidCollation raw
  | ⟨.action, raw⟩ => .invalidAction raw
  | ⟨.capability, raw⟩ => .unknownCapability raw

/-- The text of an optional annotation, nothing if it is blank or absent. -/
def given (sort : TextSort) (raw : Option String) : List AnnotatedText :=
  (Text.given? raw).toList.map (⟨sort, ·⟩)

/-- Those of the texts that have no meaning. -/
def malformed (xs : List AnnotatedText) : List AnnotatedText :=
  xs.filter (!·.hasMeaning)

private theorem malformed_append (xs ys : List AnnotatedText) :
    malformed (xs ++ ys) = malformed xs ++ malformed ys :=
  List.filter_append ..

end AnnotatedText

/-- Whether it is a text without meaning that is at fault. -/
def FieldFault.isOfText : FieldFault → Bool
  | unsupportedType _ | conflicting _ => false
  | _ => true

namespace FieldDeclaration

open AnnotatedText (given malformed)

variable (f : FieldDeclaration)

/-- The names of capabilities as texts. -/
def capabilityTexts : List AnnotatedText :=
  f.capabilityNames.map (⟨.capability, ·⟩)

/-- All texts of the field that must be one of a few words. -/
def texts : List AnnotatedText :=
  given .storage f.notes.storageType ++ given .policy (f.key.bind (·.onConflict)) ++
    given .policy f.notes.onConflict ++ given .collation f.notes.collate ++
    given .action f.notes.onDelete ++ f.capabilityTexts

/-- The texts in the place of which another text of the field is read. -/
def overruled : List AnnotatedText :=
  (if (Text.given? (f.key.bind (·.onConflict))).isSome then given .policy f.notes.onConflict
    else []) ++
    if f.capabilityNames.any namesAuto then f.capabilityTexts else []

/-- The texts that are read, in their order. -/
def readTexts : List AnnotatedText :=
  given .storage f.notes.storageType ++ f.writtenPolicy?.toList.map (⟨.policy, ·⟩) ++
    given .collation f.notes.collate ++ given .action f.notes.onDelete ++
    if f.capabilityNames.any namesAuto then [] else f.capabilityTexts

/-- The texts of a field are those that are read and those that are overruled. -/
theorem texts_perm : f.texts.Perm (f.readTexts ++ f.overruled) := by
  unfold texts readTexts overruled writtenPolicy? given
  generalize Text.given? f.notes.storageType = storage
  generalize (Text.given? f.notes.onConflict) = policy
  generalize (Text.given? f.notes.collate).toList.map (AnnotatedText.mk .collation) = collation
  generalize (Text.given? f.notes.onDelete).toList.map (AnnotatedText.mk .action) = action
  cases Text.given? (f.key.bind (·.onConflict)) with
  | none => split <;> simp
  | some raw =>
      simp only [Option.isSome_some, if_true, Option.toList_some, List.append_assoc]
      refine List.Perm.append_left _ (List.Perm.append_left _ ?_)
      split
      · simp only [List.nil_append]
        exact (List.perm_append_comm_assoc ..).trans
          (List.Perm.append_left _ (List.perm_append_comm_assoc ..))
      · have rotated : (policy.toList.map (AnnotatedText.mk .policy) ++
            (collation ++ (action ++ f.capabilityTexts))).Perm
              (collation ++ (action ++ f.capabilityTexts) ++
                policy.toList.map (AnnotatedText.mk .policy)) := List.perm_append_comm
        simpa only [List.append_nil, List.append_assoc] using rotated

/-! ## What is reported -/

/-- The fault of a text that may be absent is reported exactly if it is there without a meaning. -/
theorem filter_faultsOf {α : Type} (sort : TextSort) (parse? : String → Option α)
    (fault : String → FieldFault) (faultOf : ∀ raw, AnnotatedText.fault ⟨sort, raw⟩ = fault raw)
    (ofText : ∀ raw, (fault raw).isOfText = true)
    (meaning : ∀ raw, AnnotatedText.hasMeaning ⟨sort, raw⟩ = (parse? raw).isSome)
    (raw : Option String) :
    (faultsOf parse? fault raw).filter (·.isOfText) =
      (malformed (raw.toList.map (⟨sort, ·⟩))).map (·.fault) := by
  cases raw with
  | none => rfl
  | some raw =>
      cases parsed : parse? raw <;> simp [faultsOf, malformed, meaning, parsed, faultOf, ofText]

private theorem filter_storageFaults : f.storageFaults.filter (·.isOfText) =
    (malformed (given .storage f.notes.storageType)).map (·.fault) := by
  have written := filter_faultsOf .storage StorageType.parse? .invalidStorage (fun _ => rfl)
    (fun _ => rfl) (fun _ => rfl) (Text.given? f.notes.storageType)
  rw [given, ← written]
  unfold storageFaults storage?
  -- Without a text the class is inferred, and a type that has none is at fault for itself.
  cases Text.given? f.notes.storageType with
  | none =>
      dsimp only
      cases StorageType.infer? (splitOption f.bareType).2 <;> rfl
  | some raw =>
      dsimp only
      cases parsed : StorageType.parse? raw <;> simp [faultsOf, parsed]

/-- The faults of the names of capabilities that are texts without meaning. -/
theorem filter_capabilityFaults : f.capabilityFaults.filter (·.isOfText) =
    (malformed (if f.capabilityNames.any namesAuto then [] else f.capabilityTexts)).map
      (·.fault) := by
  unfold capabilityFaults
  dsimp only
  split
  · split <;> rfl
  · rename_i noAuto
    have plain : ∀ name ∈ f.capabilityNames, namesAuto name = false := by
      simpa using noAuto
    have unknown : f.capabilityNames.filter (fun name => (Capabilities.parse? name).isNone) =
        f.capabilityNames.filter fun name => !AnnotatedText.hasMeaning ⟨.capability, name⟩ := by
      refine List.filter_congr fun name member => ?_
      rw [AnnotatedText.hasMeaning, plain name member, Bool.false_or, Option.not_isSome]
    have all (names : List String) :
        (names.map FieldFault.unknownCapability).filter (·.isOfText) =
          names.map .unknownCapability := by
      refine List.filter_eq_self.mpr fun fault member => ?_
      obtain ⟨name, -, rfl⟩ := List.mem_map.mp member
      rfl
    rw [all, unknown, malformed, capabilityTexts, List.filter_map, List.map_map]
    rfl

/-- The faults that are about texts are those of the texts that are read and have no meaning, one each
and in their order. -/
theorem filter_faults :
    f.faults.filter (·.isOfText) = (malformed f.readTexts).map (·.fault) := by
  have conflicts : (f.conflicts.map FieldFault.conflicting).filter (·.isOfText) = [] := by
    refine List.filter_eq_nil_iff.mpr fun fault member => ?_
    obtain ⟨conflict, -, rfl⟩ := List.mem_map.mp member
    exact Bool.false_ne_true
  have policy := filter_faultsOf .policy ConflictPolicy.parse? .invalidPolicy (fun _ => rfl)
    (fun _ => rfl) (fun _ => rfl) f.writtenPolicy?
  have collation := filter_faultsOf .collation Collation.parse? .invalidCollation (fun _ => rfl)
    (fun _ => rfl) (fun _ => rfl) (Text.given? f.notes.collate)
  have action := filter_faultsOf .action DeleteAction.parse? .invalidAction (fun _ => rfl)
    (fun _ => rfl) (fun _ => rfl) (Text.given? f.notes.onDelete)
  simp only [faults, readTexts, List.filter_append, AnnotatedText.malformed_append, List.map_append,
    filter_storageFaults, policy, collation, action, conflicts, filter_capabilityFaults,
    List.append_nil]
  rfl

/-- If one name leaves the choice to the storage class, it is the only one. -/
theorem Choose.all_auto {storage : StorageType} {nullable : Bool} {names : List String}
    {set : Capabilities} (chosen : Choose storage nullable names set)
    (auto : names.any namesAuto = true) : ∀ name ∈ names, namesAuto name = true := by
  cases chosen with
  | unnamed => cases auto
  | auto isAuto =>
      intro name member
      rw [List.mem_singleton.mp member]
      exact isAuto
  | named some noAuto known =>
      obtain ⟨name, member, isAuto⟩ := List.any_eq_true.mp auto
      rw [noAuto name member] at isAuto
      cases isAuto

/-- In a field without faults, only a policy of the column that one of the key overrules can be without
meaning. -/
theorem hasMeaning_of_faultless (faultless : f.faults = []) {x : AnnotatedText}
    (member : x ∈ f.texts) : x.hasMeaning = true ∨
      (Text.given? (f.key.bind (·.onConflict))).isSome = true ∧
        x ∈ given .policy f.notes.onConflict := by
  rcases List.mem_append.mp (f.texts_perm.mem_iff.mp member) with isRead | isOverruled
  · left
    have none : malformed f.readTexts = [] := by
      rw [← List.map_eq_nil_iff, ← f.filter_faults, faultless, List.filter_nil]
    simpa using List.filter_eq_nil_iff.mp none x isRead
  · rcases List.mem_append.mp isOverruled with ofPolicy | ofNames
    · split at ofPolicy
      · rename_i keyed
        exact Or.inr ⟨keyed, ofPolicy⟩
      · cases ofPolicy
    · left
      split at ofNames
      · rename_i auto
        obtain ⟨name, isName, rfl⟩ := List.mem_map.mp ofNames
        -- A name that overrules others is a fault, so there are no others.
        simp only [faults, List.append_eq_nil_iff] at faultless
        have isAuto := (choose_of_faultless faultless.2 .blob).all_auto auto name isName
        rw [AnnotatedText.hasMeaning, isAuto, Bool.true_or]
      · cases ofNames

end FieldDeclaration

namespace Declaration

open AnnotatedText (given malformed)

/-- **Texts without a meaning.** The texts of a field are those that are read and those that are
overruled. Each that is read and has no meaning yields an error of its own, which quotes it, and no
other error is about a text. So in a model that has a table all texts have a meaning, apart from
policies of columns whose keys have one too. -/
theorem reported_texts (d : Declaration) :
    (∀ f ∈ d.mapped, f.texts.Perm (f.readTexts ++ f.overruled)) ∧
      d.reported.filter (·.fault.isOfText) =
        d.mapped.flatMap (fun f => (malformed f.readTexts).map fun x => f.error d.name x.fault) ∧
      ∀ t, d.extract = .ok t → ∀ f ∈ d.mapped, ∀ x ∈ f.texts,
        x.hasMeaning = true ∨
          (Text.given? (f.key.bind (·.onConflict))).isSome = true ∧
            x ∈ given .policy f.notes.onConflict := by
  refine ⟨fun f _ => f.texts_perm, ?_, fun t extracted f isMapped x member => ?_⟩
  · rw [reported_eq_extractionErrors, extractionErrors, List.filter_flatMap]
    refine List.flatMap_congr fun f _ => ?_
    have ofField := f.filter_faults
    rw [List.filter_map]
    change (f.faults.filter (·.isOfText)).map (f.error d.name) = _
    rw [ofField, List.map_map]
    rfl
  · have clean := (extract_eq_ok extracted).1
    have faultless : f.faults = [] :=
      List.map_eq_nil_iff.mp (List.flatMap_eq_nil_iff.mp clean f isMapped)
    exact f.hasMeaning_of_faultless faultless member

/-- A model whose key is given a policy, and its column a text that is none. -/
def overruledPolicy : Declaration :=
  ⟨"Volume", none,
    [⟨"id", "i64", some { ColumnNotes.empty with onConflict := some "explode" },
      some { KeyNotes.empty with onConflict := some "replace" }⟩]⟩

/-- A model whose capabilities are chosen by the storage class and by a name that there is not. -/
def mixedNames : Declaration :=
  ⟨"Volume", none,
    [⟨"id", "i64", some { ColumnNotes.empty with capabilities := some ["auto", "like"] }, none⟩]⟩

/-- The text that is no policy is overruled by the policy of the key. -/
theorem reported_texts_overruled :
    ∃ t, overruledPolicy.extract = .ok t ∧ ∀ f ∈ overruledPolicy.mapped, ∀ x ∈ f.texts,
      x.hasMeaning = true ∨
        (Text.given? (f.key.bind (·.onConflict))).isSome = true ∧
          x ∈ given .policy f.notes.onConflict := by
  have clean : overruledPolicy.extractionErrors = [] := by decide +kernel
  obtain ⟨t, extracted⟩ :=
    reported_eq_nil_iff.mp (overruledPolicy.reported_eq_extractionErrors.trans clean)
  exact ⟨t, extracted, (reported_texts overruledPolicy).2.2 t extracted⟩

/-- A text without meaning may be passed over: the policy of the column leaves a table without an
error, and the name of a capability is not quoted in any. -/
theorem extract_overruled :
    ((∃ t, overruledPolicy.extract = .ok t) ∧
      ∃ f ∈ overruledPolicy.mapped, ∃ x ∈ f.texts,
        x.raw = "explode" ∧ x.hasMeaning = false) ∧
    ∃ f ∈ mixedNames.mapped, ∃ x ∈ f.texts, x.raw = "like" ∧ x.hasMeaning = false ∧
      f.error mixedNames.name x.fault ∉ mixedNames.reported := by
  have clean : overruledPolicy.extractionErrors = [] := by decide +kernel
  have mixed : mixedNames.extractionErrors =
      [⟨"Volume", "id", .conflicting .mixedCapabilities⟩] := by
    decide +kernel
  refine ⟨⟨reported_eq_nil_iff.mp (overruledPolicy.reported_eq_extractionErrors.trans clean),
    _, List.mem_singleton_self _, ⟨.policy, "explode"⟩, ?_, rfl, by decide +kernel⟩,
    _, List.mem_singleton_self _, ⟨.capability, "like"⟩, ?_, rfl, by decide +kernel, ?_⟩
  · decide +kernel
  · decide +kernel
  · rw [reported_eq_extractionErrors, mixed]
    decide +kernel

end Declaration

end Tabula
