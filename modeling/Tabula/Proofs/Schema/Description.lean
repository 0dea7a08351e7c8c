import Tabula.Proofs.Schema.Diagnosis
import Tabula.Proofs.Schema.Gathering

/-! # What annotations describe

The column that a field describes (`Tabula.FieldDeclaration.Describes`), said without the functions
that extract it. An optional type is one of a few spellings around another type, which without blanks
are told apart in one way only (`Tabula.splitOption_spec`). Extraction from a model is extraction
from each of its mapped fields alone (`Tabula.Declaration.extract_fieldwise`).
-/

namespace Tabula

/-! ## Optional types -/

private theorem stripStart?_eq_some {start cs rest : List Char} :
    stripStart? start cs = some rest ↔ cs = start ++ rest := by
  induction start generalizing cs with
  | nil => rw [stripStart?, Option.some_inj, List.nil_append]
  | cons p start ih =>
      cases cs with
      | nil => simp [stripStart?]
      | cons c cs =>
          by_cases same : p = c
          · rw [stripStart?, if_pos same, ih, same, List.cons_append, List.cons.injEq,
              and_iff_right rfl]
          · simp [stripStart?, same, Ne.symm same]

/-- The type expression is an option of the inner one. -/
def IsOption (outer inner : String) : Prop :=
  ∃ path ∈ optionPaths, outer = path ++ inner ++ ">"

/-- No path of an option is the beginning of another. -/
theorem optionPaths_apart : ∀ p ∈ optionPaths, ∀ q ∈ optionPaths,
    p.toList <+: q.toList → p = q := by
  decide

/-- A type is the option of one type at most. -/
theorem IsOption.unique {outer inner other : String} (first : IsOption outer inner)
    (second : IsOption outer other) : inner = other := by
  obtain ⟨p, isPath, rfl⟩ := first
  obtain ⟨q, isOther, same⟩ := second
  have chars := congrArg String.toList same
  simp only [String.toList_append, List.append_assoc] at chars
  have equal : p = q := by
    have ofP : p.toList <+: q.toList ++ (other.toList ++ ">".toList) := chars ▸ List.prefix_append ..
    have ofQ : q.toList <+: q.toList ++ (other.toList ++ ">".toList) := List.prefix_append ..
    rcases List.prefix_or_prefix_of_prefix ofP ofQ with before | before
    · exact optionPaths_apart p isPath q isOther before
    · exact (optionPaths_apart q isOther p isPath before).symm
  subst equal
  exact String.toList_inj.mp (List.append_cancel_right (List.append_cancel_left chars))

/-- Without blanks, a type expression is taken apart exactly if it is an option, and then into what it
is an option of. -/
theorem splitOption_spec {s : String} (noBlank : ∀ c ∈ s.toList, Text.isBlank c = false) :
    (∃ inner, splitOption s = (true, inner) ∧ IsOption s inner) ∨
      splitOption s = (false, s) ∧ ∀ inner, ¬ IsOption s inner := by
  unfold splitOption
  rw [Text.trimChars_eq_self noBlank]
  dsimp only
  split
  · rename_i body found
    obtain ⟨path, isPath, read⟩ := List.exists_of_findSome?_eq_some found
    obtain ⟨rest, stripped, ended⟩ := Option.bind_eq_some_iff.mp read
    split at ended
    -- After the path comes the inner type and, as the last character, the bracket that closes it.
    · rename_i last
      obtain rfl := Option.some.inj ended
      have whole : rest.dropLast ++ ['>'] = rest := List.dropLast_append_getLast? _ last
      have chars : s.toList = path.toList ++ rest := stripStart?_eq_some.mp stripped
      have trimmed : Text.trimChars rest.dropLast = rest.dropLast := by
        refine Text.trimChars_eq_self fun c member => noBlank c ?_
        rw [chars]
        exact List.mem_append_right _ ((List.dropLast_sublist rest).subset member)
      refine Or.inl ⟨String.ofList rest.dropLast, by rw [trimmed], path, isPath, ?_⟩
      rw [← String.toList_inj, String.toList_append, String.toList_append, String.toList_ofList,
        List.append_assoc, chars]
      exact congrArg _ whole.symm
    · cases ended
  · rename_i none
    refine Or.inr ⟨by rw [String.ofList_toList], ?_⟩
    rintro inner ⟨path, isPath, rfl⟩
    -- An option would have been found at its path.
    have missed := List.findSome?_eq_none_iff.mp none path isPath
    have stripped : stripStart? path.toList (path ++ inner ++ ">").toList =
        some (inner.toList ++ ['>']) := by
      rw [stripStart?_eq_some, String.toList_append, String.toList_append, List.append_assoc]
      rfl
    rw [stripped, Option.bind_some, List.getLast?_concat, if_pos rfl] at missed
    cases missed

/-! ## Fields -/

namespace FieldDeclaration

/-- The capabilities that the names choose: those of the storage class, if there is no name or only
the one that leaves the choice to it, and otherwise all of the named sets. -/
inductive Choose (storage : StorageType) (nullable : Bool) : List String → Capabilities → Prop
  | unnamed : Choose storage nullable [] (.automatic storage nullable)
  | auto {name : String} (isAuto : namesAuto name = true) :
      Choose storage nullable [name] (.automatic storage nullable)
  | named {names : List String} {sets : List Capabilities} (some : names ≠ [])
      (noAuto : ∀ name ∈ names, namesAuto name = false)
      (known : names.map Capabilities.parse? = sets.map Option.some) :
      Choose storage nullable names (sets.foldl .union .none)

/-- What the annotations of a field say about its column. A name that is blank or absent is that of
the field, and so are a storage class that of what the type is about, and capabilities those of the
storage class. The policy of the key goes before that of the column. -/
structure Describes (f : FieldDeclaration) (c : Column) : Prop where
  name : c.name = (Text.given? f.notes.name).getD f.name
  field : c.field = f.name
  typeText : c.typeText = Text.removeBlanks f.typeText
  nullable : c.nullable = true ↔ ∃ inner, IsOption c.typeText inner
  written : ∀ raw, Text.given? f.notes.storageType = some raw →
    StorageType.parse? raw = some c.storage
  inferred : Text.given? f.notes.storageType = none →
    ∀ inner, IsOption c.typeText inner ∨ c.nullable = false ∧ inner = c.typeText →
      StorageType.infer? inner = some c.storage
  primaryKey : c.primaryKey = f.key.isSome
  auto : c.auto = f.key.any (·.auto)
  autoincrement : c.autoincrement = f.key.any (·.autoincrement)
  indexed : c.indexed = f.notes.indexed
  unique : c.unique = f.notes.unique
  policy : ((Text.given? (f.key.bind (·.onConflict))).or (Text.given? f.notes.onConflict)).elim
    (some .unset) ConflictPolicy.parse? = some c.onConflict
  collation : (Text.given? f.notes.collate).elim (some .binary) Collation.parse? =
    some c.collation
  defaultExpr : c.defaultExpr = Text.given? f.notes.defaultExpr
  capabilities : Choose c.storage c.nullable f.capabilityNames c.capabilities

variable {f : FieldDeclaration}

private theorem noBlank_bareType (f : FieldDeclaration) :
    ∀ c ∈ f.bareType.toList, Text.isBlank c = false := by
  intro c member
  rw [bareType, Text.removeBlanks, String.toList_ofList, List.mem_filter] at member
  simpa using member.2

private theorem nullable_iff (f : FieldDeclaration) :
    f.nullable = true ↔ ∃ inner, IsOption f.bareType inner := by
  unfold nullable
  rcases splitOption_spec f.noBlank_bareType with ⟨inner, isSplit, option⟩ | ⟨isSplit, plain⟩
  · simp only [isSplit, true_iff]
    exact ⟨inner, option⟩
  · simp only [isSplit, Bool.false_eq_true, false_iff, not_exists]
    exact plain

private theorem splitOption_bareType {inner : String}
    (isInner : IsOption f.bareType inner ∨ f.nullable = false ∧ inner = f.bareType) :
    (splitOption f.bareType).2 = inner := by
  unfold nullable at isInner
  rcases splitOption_spec f.noBlank_bareType with ⟨other, isSplit, option⟩ | ⟨isSplit, plain⟩
  · rcases isInner with isOption | ⟨notNull, -⟩
    · rw [isSplit]
      exact option.unique isOption
    · rw [isSplit] at notNull
      cases notNull
  · rcases isInner with isOption | ⟨-, same⟩
    · exact absurd isOption (plain inner)
    · rw [isSplit, same]

/-- Names of which each names a set are the names of their sets. -/
theorem map_parse?_of_known {names : List String}
    (known : ∀ name ∈ names, Capabilities.parse? name ≠ none) :
    names.map Capabilities.parse? = (names.filterMap Capabilities.parse?).map some := by
  induction names with
  | nil => rfl
  | cons name names ih =>
      obtain ⟨set, parsed⟩ := Option.ne_none_iff_exists'.mp (known name List.mem_cons_self)
      rw [List.map_cons, List.filterMap_cons_some parsed, List.map_cons, parsed,
        ih fun other member => known other (List.mem_cons_of_mem _ member)]

/-- Where the names of capabilities have no fault, the capabilities are those that they choose. -/
theorem choose_of_faultless (faultless : f.capabilityFaults = []) (storage : StorageType) :
    Choose storage f.nullable f.capabilityNames (f.capabilities storage) := by
  unfold capabilityFaults at faultless
  unfold capabilities
  dsimp only at faultless ⊢
  by_cases auto : f.capabilityNames.any namesAuto = true
  · have alone : f.capabilityNames.length = 1 := by
      by_contra several
      rw [if_pos auto, if_neg several] at faultless
      cases faultless
    obtain ⟨name, isName⟩ := List.length_eq_one_iff.mp alone
    rw [isName] at auto ⊢
    rw [auto, Bool.or_true, if_pos rfl]
    exact .auto (by simpa using auto)
  · rw [if_neg auto] at faultless
    by_cases none : f.capabilityNames = []
    · rw [none, List.isEmpty_nil, Bool.true_or, if_pos rfl]
      exact .unnamed
    · have known : ∀ name ∈ f.capabilityNames, Capabilities.parse? name ≠ Option.none := by
        simpa [List.filter_eq_nil_iff] using faultless
      have noAuto : ∀ name ∈ f.capabilityNames, namesAuto name = false := by
        simpa using auto
      have named : ¬(f.capabilityNames.isEmpty || f.capabilityNames.any namesAuto) = true := by
        simpa [none] using auto
      rw [if_neg named]
      exact .named none noAuto (map_parse?_of_known known)

/-- An extracted column is the one that the annotations describe. -/
theorem describes_of_extract {c : Column} (extracted : f.extract = .ok c) : f.Describes c := by
  obtain ⟨faultless, storage, policy, collation, storageIs, policyIs, collationIs, rfl⟩ :=
    parts_of_extract extracted
  simp only [faults, List.append_eq_nil_iff] at faultless
  exact {
    name := rfl
    field := rfl
    typeText := rfl
    nullable := by
      simp only [toColumn]
      exact f.nullable_iff
    written := by
      intro raw given
      rw [storage?, given] at storageIs
      exact storageIs
    inferred := by
      intro absent inner isInner
      simp only [toColumn] at isInner ⊢
      rw [storage?, absent] at storageIs
      rw [← splitOption_bareType isInner]
      exact storageIs
    primaryKey := rfl
    auto := rfl
    autoincrement := rfl
    indexed := rfl
    unique := rfl
    policy := by
      rw [elim_eq_meaning?]
      exact policyIs
    collation := by
      rw [elim_eq_meaning?]
      exact collationIs
    defaultExpr := rfl
    capabilities := by
      simp only [toColumn]
      exact choose_of_faultless faultless.2 storage }

end FieldDeclaration

/-! ## Models -/

namespace Declaration

/-- The model with only one of its fields. -/
def alone (d : Declaration) (f : FieldDeclaration) : Declaration :=
  { d with fields := [f] }

/-- What is reported of a declaration are the errors of its extraction. -/
theorem reported_eq_extractionErrors (d : Declaration) : d.reported = d.extractionErrors := by
  unfold reported
  cases outcome : d.extract with
  | ok t => exact (extract_eq_ok outcome).1.symm
  | error errors => exact (extract_eq_error outcome).1

private theorem reported_alone (d : Declaration) {f : FieldDeclaration}
    (isMapped : f.isMapped = true) : (d.alone f).reported = f.faults.map (f.error d.name) := by
  have mapped : (d.alone f).mapped = [f] := List.filter_cons_of_pos isMapped
  rw [reported_eq_extractionErrors, extractionErrors, mapped, List.flatMap_singleton]
  rfl

private theorem reported_eq_flatMap (d : Declaration) :
    d.reported = d.mapped.flatMap fun f => (d.alone f).reported := by
  rw [reported_eq_extractionErrors]
  refine List.flatMap_congr fun f member => ?_
  exact (d.reported_alone (List.mem_filter.mp member).2).symm

private theorem extract_mapped (d : Declaration) :
    ({ d with fields := d.mapped } : Declaration).extract = d.extract := by
  have mapped : ({ d with fields := d.mapped } : Declaration).mapped = d.mapped := by
    simp [Declaration.mapped, List.filter_filter]
  unfold extract extractionErrors
  rw [mapped]
  rfl

private theorem forall₂_describes {d : Declaration} {t : Table} (extracted : d.extract = .ok t) :
    List.Forall₂ FieldDeclaration.Describes d.mapped t.columns := by
  obtain ⟨-, -, -, columns, -⟩ := extract_eq_ok extracted
  have one : List.Forall₂ (fun f c => f.extract = .ok c) d.mapped t.columns := by
    rw [← List.forall₂_map_left_iff (f := FieldDeclaration.extract) (R := fun x c => x = .ok c),
      ← columns, List.forall₂_map_left_iff]
    exact List.forall₂_refl _
  exact one.imp fun f c => FieldDeclaration.describes_of_extract

/-- Each association is of the column of its own field. -/
theorem filterMap_association? {fields : List FieldDeclaration} {columns : List Column}
    (described : List.Forall₂ FieldDeclaration.Describes fields columns) :
    fields.filterMap (·.association?) =
      (fields.zip columns).filterMap fun p =>
        (Text.given? p.1.notes.references).map fun target =>
          ⟨p.2.name, target, (Text.given? p.1.notes.onDelete).bind DeleteAction.parse?⟩ := by
  induction described with
  | nil => rfl
  | @cons f c fields columns describes rest ih =>
      have own : f.association? = (Text.given? f.notes.references).map fun target =>
          ⟨c.name, target, (Text.given? f.notes.onDelete).bind DeleteAction.parse?⟩ := by
        rw [describes.name]
        rfl
      rw [List.filterMap_cons, own, List.zip_cons_cons, List.filterMap_cons, ih]

/-- **Extraction is field by field.** Reading the fields in one pass, with one list of errors, is the
same as extracting from each of them alone: the errors of a model are those of its mapped fields one
after the other, there is a table exactly if there is none of them, and then it has the column that
each mapped field describes, in their order, with an association for each field that references a
table. Fields that are not mapped play no part. -/
theorem extract_fieldwise (d : Declaration) :
    d.gather = d.extract ∧
      d.reported = d.mapped.flatMap (fun f => (d.alone f).reported) ∧
      ((∃ t, d.extract = .ok t) ↔ d.mapped.flatMap (fun f => (d.alone f).reported) = []) ∧
      (∀ t, d.extract = .ok t →
        t.name = d.tableName ∧ t.model = d.name ∧
          List.Forall₂ FieldDeclaration.Describes d.mapped t.columns ∧
          t.associations = (d.mapped.zip t.columns).filterMap fun p =>
            (Text.given? p.1.notes.references).map fun target =>
              ⟨p.2.name, target, (Text.given? p.1.notes.onDelete).bind DeleteAction.parse?⟩) ∧
      ({ d with fields := d.mapped } : Declaration).extract = d.extract := by
  refine ⟨d.gather_eq_extract, d.reported_eq_flatMap, ?_, fun t extracted => ?_, d.extract_mapped⟩
  · rw [← d.reported_eq_flatMap, reported_eq_nil_iff]
  · obtain ⟨-, name, model, -, associations⟩ := extract_eq_ok extracted
    have described := forall₂_describes extracted
    exact ⟨name, model, described, associations.trans (filterMap_association? described)⟩

/-- A key whose column has a policy of its own. -/
def volumeKey : FieldDeclaration :=
  ⟨"id", "i64", some { ColumnNotes.empty with name := some " ", onConflict := some "ignore" },
    some { KeyNotes.empty with onConflict := some "Replace" }⟩

def volumeShelf : FieldDeclaration :=
  ⟨"shelf", "Option < core::u32 >",
    some { ColumnNotes.empty with
      name := some "shelf id"
      capabilities := some ["eq", " ", "In_List "]
      references := some "Shelf"
      onDelete := some "set-null" },
    none⟩

def volume : Declaration :=
  ⟨"Volume", none, [volumeKey, .plain "cache" "Vec<String>", volumeShelf]⟩

/-- The columns and the association of a volume are those of its fields. -/
theorem extract_fieldwise_volume :
    ∃ t, volume.extract = .ok t ∧ List.Forall₂ FieldDeclaration.Describes volume.mapped t.columns ∧
      t.columns.map (fun c => (c.name, c.onConflict)) =
        [("id", .replace), ("shelf id", .unset)] ∧
      t.associations = [⟨"shelf id", "Shelf", some .setNull⟩] := by
  have clean : volume.extractionErrors = [] := by decide +kernel
  obtain ⟨t, extracted⟩ := reported_eq_nil_iff.mp (volume.reported_eq_extractionErrors.trans clean)
  obtain ⟨-, -, described, associations⟩ := (extract_fieldwise volume).2.2.2.1 t extracted
  have mapped : volume.mapped = [volumeKey, volumeShelf] := rfl
  refine ⟨t, extracted, described, ?_⟩
  rw [mapped] at described associations
  obtain ⟨key, others, ofKey, ofOthers, columns⟩ := List.forall₂_cons_left_iff.mp described
  obtain ⟨shelf, none, ofShelf, ofNone, rfl⟩ := List.forall₂_cons_left_iff.mp ofOthers
  obtain rfl := List.forall₂_nil_left_iff.mp ofNone
  have names : key.name = "id" ∧ shelf.name = "shelf id" := by
    rw [ofKey.name, ofShelf.name]
    decide +kernel
  have keyPolicy : some ConflictPolicy.replace = some key.onConflict :=
    Eq.trans (by decide +kernel) ofKey.policy
  have shelfPolicy : some ConflictPolicy.unset = some shelf.onConflict :=
    Eq.trans (by decide +kernel) ofShelf.policy
  have noTarget : Text.given? volumeKey.notes.references = Option.none := by decide +kernel
  have target : Text.given? volumeShelf.notes.references = some "Shelf" := by decide +kernel
  have action : (Text.given? volumeShelf.notes.onDelete).bind DeleteAction.parse? =
      some .setNull := by
    decide +kernel
  rw [associations, columns]
  simp only [List.map_cons, List.map_nil, List.zip_cons_cons, List.zip_nil_left,
    List.filterMap_cons, List.filterMap_nil, noTarget, target, action, Option.map_none,
    Option.map_some, names, ← Option.some.inj keyPolicy, ← Option.some.inj shelfPolicy, and_self]

end Declaration

end Tabula
