import Tabula.Proofs.Outcome
import Tabula.Proofs.Schema.Extraction
import Tabula.Source.Derivation

/-! # What derivation yields

A derived model is that of the declaration that the record makes, and its table is the extracted one
and has no fault (`Tabula.Source.derive_eq_ok`). So each column is of one of the fields of the
record, and the columns come in the order of their fields
(`Tabula.Source.Derivation.fields_sublist`).
-/

namespace Tabula

private theorem FieldDeclaration.field_of_extract {f : FieldDeclaration} {column : Column}
    (extracted : f.extract = .ok column) : column.field = f.name := by
  unfold extract at extracted
  split at extracted
  · obtain rfl := Except.ok.inj extracted
    rfl
  · cases extracted

/-- The columns of an extracted table are of the mapped fields. -/
theorem Declaration.fields_of_extract {d : Declaration} {t : Table}
    (extracted : d.extract = .ok t) : t.columns.map (·.field) = d.mapped.map (·.name) := by
  obtain ⟨-, -, -, columns, -⟩ := extract_eq_ok extracted
  generalize t.columns = cs at columns
  generalize d.mapped = fs at columns
  induction cs generalizing fs with
  | nil =>
      rw [List.map_eq_nil_iff.mp columns.symm]
      rfl
  | cons c cs ih =>
      obtain ⟨f, rest, rfl, ofField, others⟩ := List.map_eq_cons_iff.mp columns.symm
      rw [List.map_cons, List.map_cons, ih rest others.symm,
        FieldDeclaration.field_of_extract ofField]

namespace Source

private theorem FieldSource.name_of_declaration {f : FieldSource} {declared : FieldDeclaration}
    (reads : f.declaration = .ok declared) : declared.name = f.name := by
  obtain ⟨column, -, reads⟩ := bind_eq_ok reads
  obtain ⟨key, -, reads⟩ := bind_eq_ok reads
  obtain rfl := Except.ok.inj reads
  rfl

private theorem names_of_mapM_declaration {fs : List FieldSource} {declared : List FieldDeclaration}
    (reads : fs.mapM (·.declaration) = .ok declared) :
    declared.map (·.name) = fs.map (·.name) := by
  induction fs generalizing declared with
  | nil =>
      obtain rfl := Except.ok.inj reads
      rfl
  | cons f fs ih =>
      rw [List.mapM_cons] at reads
      obtain ⟨first, ofFirst, reads⟩ := bind_eq_ok reads
      obtain ⟨rest, ofRest, reads⟩ := bind_eq_ok reads
      obtain rfl := Except.ok.inj reads
      rw [List.map_cons, List.map_cons, ih ofRest, FieldSource.name_of_declaration ofFirst]

private theorem checkedTable_eq_ok {decl : Declaration} {t : Table}
    (checked : checkedTable decl = .ok t) : decl.extract = .ok t ∧ t.faults = [] := by
  unfold checkedTable at checked
  split at checked
  · cases checked
  · rename_i extracted
    split at checked
    · rename_i faultless
      obtain rfl := Except.ok.inj checked
      exact ⟨extracted, faultless⟩
    · cases checked

variable {text : String} {d : Derivation}

/-- What a model is derived from, step by step. -/
theorem steps_of_derive (derived : derive text = .ok d) :
    ∃ ts decl, tokens? text = some ts ∧ item ts = .ok d.item ∧
      d.item.namedFields = .ok d.fields ∧ d.item.declaration d.fields = .ok decl ∧
      checkedTable decl = .ok d.table := by
  unfold derive at derived
  split at derived
  · rename_i ts read
    obtain ⟨i, ofItem, derived⟩ := bind_eq_ok derived
    obtain ⟨fs, ofFields, derived⟩ := bind_eq_ok derived
    obtain ⟨decl, declares, derived⟩ := bind_eq_ok derived
    split at derived
    · rename_i checked
      obtain rfl := Except.ok.inj derived
      exact ⟨ts, decl, read, ok_of_mapError ofItem, ok_of_mapError ofFields,
        ok_of_mapError declares, checked⟩
    · cases derived
    · cases derived
  · cases derived

/-- A derived model is that of a declaration which can be extracted and has no fault. -/
theorem derive_eq_ok (derived : derive text = .ok d) :
    ∃ decl, d.item.declaration d.fields = .ok decl ∧ decl.extract = .ok d.table ∧
      d.table.faults = [] := by
  obtain ⟨_, decl, -, -, -, declared, checked⟩ := steps_of_derive derived
  exact ⟨decl, declared, checkedTable_eq_ok checked⟩

namespace Derivation

/-- The columns of a derived model are of some of its fields, in their order. -/
theorem fields_sublist (derived : derive text = .ok d) :
    (d.table.columns.map (·.field)).Sublist (d.fields.map (·.name)) := by
  obtain ⟨decl, declared, extracted, -⟩ := derive_eq_ok derived
  obtain ⟨table, -, declared⟩ := bind_eq_ok declared
  obtain ⟨fields, ofFields, declared⟩ := bind_eq_ok declared
  obtain rfl := Except.ok.inj declared
  rw [Declaration.fields_of_extract extracted, ← names_of_mapM_declaration ofFields]
  exact List.Sublist.map _ List.filter_sublist

private theorem name_of_field? {name : String} {f : FieldSource} (found : d.field? name = some f) :
    f.name = name := by
  unfold field? at found
  have named := List.find?_some found
  exact beq_iff_eq.mp named

/-- Columns whose fields are fields of the record are paired with these, one by one. -/
theorem pairs_of_fields {cs : List Column} (present : ∀ c ∈ cs, c.field ∈ d.fields.map (·.name)) :
    (cs.filterMap fun c => (d.field? c.field).map (c, ·)).map (·.1) = cs ∧
      (cs.filterMap fun c => (d.field? c.field).map (c, ·)).map (·.2.name) =
        cs.map (·.field) := by
  induction cs with
  | nil => exact ⟨rfl, rfl⟩
  | cons c cs ih =>
      obtain ⟨columns, fields⟩ := ih fun c' member => present c' (List.mem_cons_of_mem _ member)
      obtain ⟨f, member, named⟩ := List.mem_map.mp (present c List.mem_cons_self)
      obtain ⟨f', found⟩ : ∃ f', d.field? c.field = some f' := by
        refine Option.isSome_iff_exists.mp (List.find?_isSome.mpr ⟨f, member, ?_⟩)
        exact beq_iff_eq.mpr named
      have named' := name_of_field? found
      simp only [List.filterMap_cons, found, Option.map_some, List.map_cons, columns, fields,
        named', and_self]

/-- Each column of the table is paired with its field. -/
theorem map_mapped (derived : derive text = .ok d) :
    d.mapped.map (·.1) = d.table.columns ∧
      d.mapped.map (·.2.name) = d.table.columns.map (·.field) :=
  pairs_of_fields fun _ member =>
    (fields_sublist derived).subset (List.mem_map_of_mem member)

end Derivation

end Source

end Tabula
