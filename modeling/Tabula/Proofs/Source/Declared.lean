import Tabula.Proofs.Schema.Blanks
import Tabula.Proofs.Source.Derivation
import Tabula.Proofs.Source.Reading
import Mathlib.Data.Set.List

/-! # Models derived from written records

A model can be written as a record declaration if its names are names, its types are types and its
lists of capabilities are of identifiers, one at least (`Tabula.Source.exists_written`). However it
is written, it is read back up to blanks in types (`Tabula.Source.declares_text`), and those have no
part in what is extracted. So deriving a model from the text is extracting and checking the table of
the model: `Tabula.Source.derive_declared`. The conditions are needed
(`Tabula.Source.derive_ne_extract`).
-/

namespace Tabula

namespace Source

/-- The text is a record declaration that declares the model. -/
def Declares (text : String) (d : Declaration) : Prop :=
  ∃ ts i fs, tokens? text = some ts ∧ item ts = .ok i ∧ i.namedFields = .ok fs ∧
    i.declaration fs = .ok d

/-- The causes of the errors, in their order. -/
def Failure.causes : Failure → List Cause
  | unreadable => []
  | errors first more => (first :: more).map (·.cause)

/-- The cause with the type that it quotes without blanks. -/
def Cause.bare : Cause → Cause
  | extraction e => extraction e.bare
  | cause => cause

private theorem derive_eq_of_declares {text : String} {d : Declaration}
    (declares : Declares text d) :
    (∀ t, checkedTable d = .ok t → ∃ x, derive text = .ok x ∧ x.table = t) ∧
      ∀ es, checkedTable d = .error es → es ≠ [] →
        ∃ f, derive text = .error f ∧ f.causes = es.map (·.cause) := by
  obtain ⟨ts, i, fs, tokens, item, fields, declaration⟩ := declares
  refine ⟨fun t checked => ⟨⟨i, fs, t⟩, ?_, rfl⟩, fun es checked some => ?_⟩
  · rw [derive, tokens]
    simp only [item, fields, declaration, bind, Except.bind, Except.mapError, checked]
  · obtain ⟨e, es, rfl⟩ := List.exists_cons_of_ne_nil some
    refine ⟨.errors e es, ?_, rfl⟩
    rw [derive, tokens]
    simp only [item, fields, declaration, bind, Except.bind, Except.mapError, checked]

/-! ## Written models -/

/-- A field that can be written. -/
structure IsWritableField (f : FieldDeclaration) : Prop where
  name : isName f.name = true
  type : isTypeText f.typeText = true
  capabilities : ∀ notes names, f.column = some notes → notes.capabilities = some names →
    names ≠ [] ∧ ∀ n ∈ names, isIdentifier n = true

/-- A model that can be written. -/
structure IsWritable (d : Declaration) : Prop where
  name : isName d.name = true
  fields : ∀ f ∈ d.fields, IsWritableField f

/-- The argument for a text, if there is one. -/
def textArgument (key : ColumnText) (value : Option String) : List ColumnArgument :=
  (value.map (.text key)).toList

private theorem filterMap_textArgument (key key' : ColumnText) (value : Option String) :
    (textArgument key' value).filterMap (ColumnArgument.text? key) =
      if key' = key then value.toList else [] := by
  cases value with
  | none => simp [textArgument]
  | some value =>
      by_cases same : key' = key <;> simp [textArgument, ColumnArgument.text?, same]

private theorem filterMap_flag_textArgument (key : ColumnFlag) (key' : ColumnText)
    (value : Option String) :
    (textArgument key' value).filterMap (ColumnArgument.flag? key) = [] := by
  cases value <;> rfl

private theorem filterMap_capabilities_textArgument (key : ColumnText) (value : Option String) :
    (textArgument key value).filterMap ColumnArgument.capabilities? = [] := by
  cases value <;> rfl

private theorem exists_names {names : List String} (some : names ≠ [])
    (identifiers : ∀ n ∈ names, isIdentifier n = true) :
    ∃ (first : Identifier) (more : List Identifier), (first :: more).map (·.val) = names := by
  obtain ⟨first, more, rfl⟩ := List.exists_cons_of_ne_nil some
  refine ⟨⟨first, identifiers first List.mem_cons_self⟩,
    more.attachWith _ fun n member => identifiers n (List.mem_cons_of_mem _ member), ?_⟩
  exact congrArg (first :: ·) (List.attachWith_map_subtype_val _)

/-- Any notes on a column can be said by arguments, if the names in them are identifiers. -/
theorem exists_columnSaid {notes : ColumnNotes}
    (capabilities : ∀ names, notes.capabilities = some names →
      names ≠ [] ∧ ∀ n ∈ names, isIdentifier n = true) :
    ∃ as, columnSaid as = notes := by
  let flags : List ColumnArgument :=
    [.flag .indexed (some notes.indexed), .flag .unique (some notes.unique)]
  obtain ⟨as, ofNames, noText, indexed, unique⟩ : ∃ as : List ColumnArgument,
      (as.filterMap ColumnArgument.capabilities?).getLast? = notes.capabilities ∧
        (∀ key, as.filterMap (ColumnArgument.text? key) = []) ∧
        as.filterMap (ColumnArgument.flag? .indexed) = [notes.indexed] ∧
        as.filterMap (ColumnArgument.flag? .unique) = [notes.unique] := by
    cases given : notes.capabilities with
    | none => exact ⟨flags, rfl, fun _ => rfl, rfl, rfl⟩
    | some names =>
        obtain ⟨some, identifiers⟩ := capabilities names given
        obtain ⟨first, more, rfl⟩ := exists_names some identifiers
        exact ⟨flags ++ [.capabilities .listed first more], rfl, fun _ => rfl, rfl, rfl⟩
  refine ⟨textArgument .name notes.name ++ textArgument .onConflict notes.onConflict ++
    textArgument .collate notes.collate ++ textArgument .defaultExpr notes.defaultExpr ++
    textArgument .storageType notes.storageType ++ textArgument .references notes.references ++
    textArgument .onDelete notes.onDelete ++ as, ?_⟩
  have last (value : Option String) : value.toList.getLast? = value := by
    cases value <;> rfl
  simp [-List.getLast?_filterMap, columnSaid, filterMap_textArgument, filterMap_flag_textArgument,
    filterMap_capabilities_textArgument, noText, indexed, unique, ofNames, last]

private theorem exists_keySaid (notes : KeyNotes) : ∃ as, keySaid as = notes := by
  refine ⟨[.flag .auto (some notes.auto), .flag .autoincrement (some notes.autoincrement)] ++
    (notes.onConflict.map .onConflict).toList, ?_⟩
  obtain ⟨auto, autoincrement, onConflict⟩ := notes
  cases onConflict <;> rfl

/-- Any writable field is declared by a written one. -/
theorem exists_declared {f : FieldDeclaration} (writable : IsWritableField f) :
    ∃ w : WrittenField, w.declared = f := by
  obtain ⟨name, typeText, column, key⟩ := f
  obtain ⟨columns, ofColumns⟩ : ∃ as : List FieldAttribute,
      saidTogether? columnSaid (as.filterMap (·.column?)) = column ∧
        as.filterMap (·.key?) = [] := by
    cases given : column with
    | none => exact ⟨[], rfl, rfl⟩
    | some notes =>
        obtain ⟨as, said⟩ := exists_columnSaid (writable.capabilities notes · given)
        refine ⟨[.column (some as)], ?_, rfl⟩
        simp [saidTogether?, FieldAttribute.column?, said]
  obtain ⟨keys, ofKeys⟩ : ∃ as : List FieldAttribute,
      saidTogether? keySaid (as.filterMap (·.key?)) = key ∧
        as.filterMap (·.column?) = [] := by
    cases key with
    | none => exact ⟨[], rfl, rfl⟩
    | some notes =>
        obtain ⟨as, said⟩ := exists_keySaid notes
        refine ⟨[.key (some as)], ?_, rfl⟩
        simp [saidTogether?, FieldAttribute.key?, said]
  refine ⟨⟨columns ++ keys, false, name, typeText⟩, ?_⟩
  simp [WrittenField.declared, ofColumns, ofKeys]

/-- Every such model can be written. -/
theorem exists_written {d : Declaration} (writable : IsWritable d) :
    ∃ w : WrittenRecord, w.declared = d := by
  obtain ⟨name, table, fields⟩ := d
  obtain ⟨tables, ofTables⟩ : ∃ tables : List (List String), tables.flatten.getLast? = table := by
    cases table with
    | none => exact ⟨[], rfl⟩
    | some n => exact ⟨[[n]], rfl⟩
  obtain ⟨written, ofWritten⟩ : fields ∈ Set.range (List.map WrittenField.declared) := by
    rw [Set.range_list_map]
    exact fun f member => exists_declared (writable.fields f member)
  refine ⟨⟨tables, false, name, written⟩, ?_⟩
  rw [WrittenRecord.declared, ofTables, ofWritten]

/-- What is written is read, and only blanks in types are lost. -/
theorem declares_text {w : WrittenRecord} (writable : IsWritable w.declared) :
    ∃ d, Declares w.text d ∧ d.bare = w.declared.bare := by
  have each : ∀ f ∈ w.fields, IsWritableField f.declared := fun f member =>
    writable.fields _ (List.mem_map_of_mem member)
  have named : ∀ f ∈ w.fields, isName f.name = true := fun f member => (each f member).name
  have types : ∀ f ∈ w.fields, isTypeText f.typeText = true := fun f member =>
    (each f member).type
  have tokens := WrittenRecord.tokens?_text (isName_iff.mp writable.name).1
    (fun f member => (isName_iff.mp (named f member)).1) types
  refine ⟨w.declaration, ⟨w.tokens, w.item, w.fields.map (·.read), tokens,
    item_tokens writable.name named types, rfl, declaration_item w⟩, ?_⟩
  have fields : (w.fields.map (·.declaration)).map (·.bare) =
      (w.fields.map (·.declared)).map (·.bare) := by
    rw [List.map_map, List.map_map]
    refine List.map_congr_left fun f member => ?_
    have same := (WrittenField.spells_type (types f member)).2.2
    simp only [Function.comp_apply, WrittenField.declaration, FieldDeclaration.bare,
      FieldDeclaration.bareType, same]
    rfl
  simp only [Declaration.bare, WrittenRecord.declaration, WrittenRecord.declared, fields]

private theorem eq_ok_of_mapError {ε α : Type} {x y : Except ε α} {f : ε → ε} {a : α}
    (same : x.mapError f = y.mapError f) (ofY : y = .ok a) : x = .ok a := by
  subst ofY
  cases x with
  | ok b => exact same
  | error e => cases same

private theorem exists_error_of_mapError {ε α : Type} {x y : Except ε α} {f : ε → ε} {e : ε}
    (same : x.mapError f = y.mapError f) (ofY : y = .error e) :
    ∃ e', x = .error e' ∧ f e' = f e := by
  subst ofY
  cases x with
  | ok b => cases same
  | error e' => exact ⟨e', rfl, Except.error.inj same⟩

private theorem cause_faultError (record : String) (f : TableFault) :
    (faultError record f).cause = .validation f := by
  cases f <;> rfl

private theorem checkedTable_of_faults {d : Declaration} {t : Table} (ofTable : d.extract = .ok t)
    (faulty : t.faults ≠ []) : checkedTable d = .error (t.faults.map (faultError d.name)) := by
  rw [checkedTable, ofTable]
  cases faults : t.faults with
  | nil => exact (faulty faults).elim
  | cons f fs => simp only [faults]

/-- **Reading what is written.** Each model whose names are names, whose types are types and whose
lists of capabilities are identifiers, one at least, can be written as a record declaration. However
its arguments are put into attributes, the model is read back up to blanks in its types, so a model
is derived from the text exactly if the table of the model can be extracted and has no fault, and
otherwise the same is reported in the same order. -/
theorem derive_declared (d : Declaration) (writable : IsWritable d) :
    (∃ w : WrittenRecord, w.declared = d) ∧
      ∀ w : WrittenRecord, w.declared = d →
        (∃ d', Declares w.text d' ∧ d'.bare = d.bare) ∧
        (∀ t, d.extract = .ok t → t.faults = [] → ∃ x, derive w.text = .ok x ∧ x.table = t) ∧
        (∀ t, d.extract = .ok t → t.faults ≠ [] →
          ∃ f, derive w.text = .error f ∧ f.causes = t.faults.map .validation) ∧
        ∀ es, d.extract = .error es → ∃ f, derive w.text = .error f ∧
          f.causes.map (·.bare) = es.map fun e => .extraction e.bare := by
  refine ⟨exists_written writable, fun w declared => ?_⟩
  subst declared
  obtain ⟨d', declares, same⟩ := declares_text writable
  obtain ⟨derived, failed⟩ := derive_eq_of_declares declares
  have extracted : d'.extract.mapError (·.map (·.bare)) =
      w.declared.extract.mapError (·.map (·.bare)) := by
    rw [← Declaration.extract_bare, ← Declaration.extract_bare, same]
  refine ⟨⟨d', declares, same⟩, fun t ofTable faultless => ?_, fun t ofTable faulty => ?_,
    fun es ofErrors => ?_⟩
  · refine derived t ?_
    rw [checkedTable, eq_ok_of_mapError extracted ofTable]
    simp only [faultless]
  · have checked := checkedTable_of_faults (eq_ok_of_mapError extracted ofTable) faulty
    obtain ⟨f, reported, causes⟩ := failed _ checked (mt List.map_eq_nil_iff.mp faulty)
    refine ⟨f, reported, ?_⟩
    rw [causes, List.map_map]
    exact List.map_congr_left fun fault _ => cause_faultError _ fault
  · obtain ⟨es', ofErrors', alike⟩ := exists_error_of_mapError extracted ofErrors
    have checked : checkedTable d' = .error (es'.map fun e => ⟨.extraction e, some e.field⟩) := by
      rw [checkedTable, ofErrors']
    have notEmpty : es' ≠ [] := (Declaration.extract_eq_error ofErrors').2
    obtain ⟨f, reported, causes⟩ := failed _ checked (mt List.map_eq_nil_iff.mp notEmpty)
    refine ⟨f, reported, ?_⟩
    have ofBare (es : List ExtractionError) : (es.map (·.bare)).map Cause.extraction =
        es.map fun e => .extraction e.bare := List.map_map
    rw [causes, List.map_map, List.map_map, ← ofBare es, ← alike, ofBare]
    rfl

/-- A record with two names for its table and two attributes on a column. -/
def writtenNote : WrittenRecord where
  tables := [["old", "notes"]]
  isPublic := true
  name := "Note"
  fields := [
    ⟨[.key (some [.flag .auto (some false)])], true, "id", "i64"⟩,
    ⟨[.column (some [.flag .indexed none]),
      .column (some [.text .name "the \"text\"", .flag .indexed (some false),
        .capabilities (.quoted 1) ⟨"eq", by decide⟩ [⟨"in_list", by decide⟩]])],
      false, "text", "Option < String >"⟩,
    ⟨[], false, "cache", "Vec<u8>"⟩]

/-- The written note is derived to the table that its declaration is extracted to. -/
theorem derive_declared_writtenNote :
    IsWritable writtenNote.declared ∧
      ∃ t x, writtenNote.declared.extract = .ok t ∧ t.faults = [] ∧
        derive writtenNote.text = .ok x ∧ x.table = t ∧
        x.table.columns.map (·.name) = ["id", "the \"text\""] := by
  have writable : IsWritable writtenNote.declared := by
    refine ⟨by decide, fun f member => ?_⟩
    obtain rfl | rfl | rfl : _ ∨ _ ∨ _ := by
      simpa only [writtenNote, WrittenRecord.declared, List.map_cons, List.map_nil, List.mem_cons,
        List.not_mem_nil, or_false] using member
    · refine ⟨by decide, by decide +kernel, fun notes names given => ?_⟩
      cases given
    · refine ⟨by decide, by decide +kernel, fun notes names given chosen => ?_⟩
      cases given
      cases chosen
      decide
    · refine ⟨by decide, by decide +kernel, fun notes names given => ?_⟩
      cases given
  have found : writtenNote.declared.extract.toOption.map
      (fun t => (t.faults, t.columns.map (·.name))) = some ([], ["id", "the \"text\""]) := by
    decide +kernel
  obtain ⟨t, extracted, known⟩ := Option.map_eq_some_iff.mp found
  obtain ⟨faultless, names⟩ := Prod.mk.inj known
  have extracted := eq_ok_of_toOption extracted
  obtain ⟨_, back⟩ := derive_declared _ writable
  obtain ⟨_, derived, _⟩ := back writtenNote rfl
  obtain ⟨x, derived, rfl⟩ := derived t extracted faultless
  exact ⟨writable, x.table, x, extracted, faultless, derived, rfl, names⟩

/-- What is reported of a text, nothing if a model is derived from it. -/
def reported (text : String) : List Cause :=
  match derive text with
  | .ok _ => []
  | .error f => f.causes

private theorem exists_of_reported (text : String) {c : Cause} {more : List Cause}
    (some : reported text = c :: more) : ∃ f, derive text = .error f ∧ f.causes = c :: more := by
  cases derived : derive text with
  | ok x =>
      rw [reported, derived] at some
      cases some
  | error f =>
      rw [reported, derived] at some
      exact ⟨f, rfl, some⟩

/-- A record of one field, with a column. -/
def writtenSingle (name typeText : String) : WrittenRecord :=
  ⟨[], false, "Note", [⟨[.column none], false, name, typeText⟩]⟩

/-- A model of one field, whose column is to have no capabilities. -/
def withoutCapabilities : Declaration where
  name := "Note"
  table := none
  fields := [⟨"text", "String", some { ColumnNotes.empty with capabilities := some [] }, none⟩]

/-- A type is quoted as its tokens are written, without blanks; comments are no part of it; and an
empty list of capabilities cannot be written. -/
theorem derive_ne_extract :
    (∃ e f, isTypeText "HashMap<String, i64>" = true ∧
        (writtenSingle "cache" "HashMap<String, i64>").declared.extract = .error [e] ∧
        derive (writtenSingle "cache" "HashMap<String, i64>").text = .error f ∧
        f.causes.map (·.message) ≠ [e.message]) ∧
      (∃ e x, (writtenSingle "id" "i64/* row */").declared.extract = .error [e] ∧
        derive (writtenSingle "id" "i64/* row */").text = .ok x) ∧
      ∃ t f, withoutCapabilities.extract = .ok t ∧ t.faults = [] ∧
        derive "struct Note \x7b\n#[column(helpers())]\ntext: String,\n\x7d\n" = .error f ∧
        f.causes = [.ended "nested attribute"] := by
  refine ⟨?_, ?_, ?_⟩
  · have extracted : (writtenSingle "cache" "HashMap<String, i64>").declared.extract =
        .error [⟨"Note", "cache", .unsupportedType "HashMap<String, i64>"⟩] := by
      decide +kernel
    have quotes : reported (writtenSingle "cache" "HashMap<String, i64>").text =
        [.extraction ⟨"Note", "cache", .unsupportedType "HashMap<String,i64>"⟩] := by
      decide +kernel
    obtain ⟨f, derived, causes⟩ := exists_of_reported _ quotes
    refine ⟨_, f, by decide +kernel, extracted, derived, ?_⟩
    rw [causes]
    decide +kernel
  · have extracted : (writtenSingle "id" "i64/* row */").declared.extract =
        .error [⟨"Note", "id", .unsupportedType "i64/* row */"⟩] := by
      decide +kernel
    have found : (derive (writtenSingle "id" "i64/* row */").text).toOption.isSome = true := by
      decide +kernel
    obtain ⟨x, derived⟩ := Option.isSome_iff_exists.mp found
    exact ⟨_, x, extracted, eq_ok_of_toOption derived⟩
  · have found : withoutCapabilities.extract.toOption.map (·.faults) = some [] := by
      decide +kernel
    obtain ⟨t, extracted, faultless⟩ := Option.map_eq_some_iff.mp found
    have ends : reported "struct Note \x7b\n#[column(helpers())]\ntext: String,\n\x7d\n" =
        [.ended "nested attribute"] := by
      decide +kernel
    obtain ⟨f, derived, causes⟩ := exists_of_reported _ ends
    exact ⟨t, f, eq_ok_of_toOption extracted, faultless, derived, causes⟩

end Source

end Tabula
