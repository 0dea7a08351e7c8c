import Tabula.Proofs.Model.Change
import Tabula.Proofs.Query.Surface
import Tabula.Proofs.Session.Storing

/-! # One contract in two forms

What a table offers is said twice. A derived record has it as types: a trait for each capability of
a column, filters and orderings that can only be built of these, and the places of its fields. The
surface of the table has it as data, by names that are looked up. Both come from the same columns,
and they agree in everything that a statement depends on (`Tabula.Source.Derivation.contract`).
-/

namespace Tabula

/-! ## Models and the surface of their table -/

/-- A single row is addressed by the name that the surface says. -/
theorem Surface.name_target_ofTable (t : Table) : (ofTable t).target.name = t.keyName := by
  change (if t.hasKey then RowTarget.key t.keyName else .rowid).name = t.keyName
  split
  · rfl
  · rename_i keyless
    have none : t.keyColumn? = none := by
      refine List.find?_eq_none.mpr fun c member isKey => keyless ?_
      exact List.any_eq_true.mpr ⟨c, member, isKey⟩
    rw [Table.keyName, none]
    rfl

namespace Model

variable {m : Model}

private theorem map_column_columns (m : Model) : m.columns.map (·.column) = m.table.columns := by
  calc m.columns.map (·.column)
      = (m.table.columns.zip (m.record.map (·.type))).map (·.1) := by
        rw [columns, List.zip, List.map_zipWith, List.map_zipWith]
    _ = m.table.columns := List.map_fst_zip (by rw [List.length_map, m.length_record])

/-- A filter is what the surface builds for the column, however its name is spelled. -/
theorem condition_of_filter (faultless : m.table.faults = []) {c : ModelColumn}
    (member : c ∈ m.columns) {op : Comparison} (offered : c.offers (.compare op) = true)
    {operands : List c.type.scalar.Carrier} (counted : op.Takes operands.length) {name : String}
    (same : Text.sameName name c.column.name = true) :
    (Surface.ofTable m.table).condition name op (operands.map c.type.scalar.write) =
      .ok (Filter.compare c member op offered operands counted).condition := by
  obtain ⟨place, isColumn⟩ := List.getElem?_of_mem (ModelColumn.mem_columns member)
  refine (Surface.condition_ofTable faultless isColumn same).mpr ⟨offered, ?_, rfl⟩
  rw [List.length_map]
  exact counted

/-- An ordering is what the surface builds for the column, however its name is spelled. -/
theorem order_of_term (faultless : m.table.faults = []) (o : ModelOrder m) {name : String}
    (same : Text.sameName name o.column.column.name = true) :
    (Surface.ofTable m.table).order name o.direction = .ok o.term := by
  obtain ⟨place, isColumn⟩ := List.getElem?_of_mem (ModelColumn.mem_columns o.mem)
  exact (Surface.order_ofTable faultless isColumn same).mpr ⟨o.offered, rfl⟩

/-- A record is assigned to the columns that the surface says, in their order. -/
theorem exists_setEntry (u : Update m) (entry : m.Entry) :
    ∃ more, (u.setEntry entry).assignments = some (u.assignments.getD [] ++ more) ∧
      more.map (·.1) = (Surface.ofTable m.table).updatable :=
  ⟨_, rfl, (Update.Call.setEntry entry).map_fst_assignments?⟩

end Model

namespace Source

/-! ## What is generated for the columns -/

/-- A column has the trait of a capability exactly if it has the capability. -/
theorem DerivedColumn.mem_traits {dc : DerivedColumn} {capability : Capability} :
    traitName capability ∈ dc.traits ↔ dc.column.capabilities.has capability = true := by
  have distinct : (Capability.all.map traitName).Nodup := by decide +kernel
  rw [traits, ← Capabilities.mem_toList, List.mem_map]
  constructor
  · rintro ⟨other, member, same⟩
    exact List.inj_on_of_nodup_map distinct other.mem_all capability.mem_all same ▸ member
  · intro member
    exact ⟨capability, member, rfl⟩

/-- Slots that take the places of a row one by one take each place once. -/
theorem Slot.places_of_isLaidOut {n : Nat} {ss : List Slot} (laidOut : IsLaidOut n ss) :
    (ss.filterMap fun s => s.column.map (·.1)) = List.range' n (mappedFields ss).length := by
  induction ss generalizing n with
  | nil => rfl
  | cons s ss ih =>
      obtain ⟨field, _ | ⟨place, c⟩⟩ := s
      · exact ih laidOut
      · obtain ⟨rfl, laidOut⟩ := laidOut
        exact congrArg (List.cons place) (ih laidOut)

namespace Derivation

variable {d : Derivation} {text : String} {ss : List Slot}

/-- What is generated for the columns is generated column by column, in the order of a row. -/
theorem map_columns (derived : derive text = .ok d) :
    d.columns.map (fun dc => (dc.column, dc.index)) = d.table.columns.zipIdx := by
  rw [← (map_mapped derived).1, List.zipIdx_map, columns, List.map_map]
  rfl

private theorem getElem?_of_mem_columns (derived : derive text = .ok d) {dc : DerivedColumn}
    (member : dc ∈ d.columns) : d.table.columns[dc.index]? = some dc.column := by
  have paired : (dc.column, dc.index) ∈ d.table.columns.zipIdx :=
    map_columns derived ▸ List.mem_map_of_mem (f := fun dc => (dc.column, dc.index)) member
  exact List.mem_zipIdx_iff_getElem?.mp paired

/-- An instance is written with the value of its field in each column. -/
theorem map_write (derived : derive text = .ok d) (distinct : (d.fields.map (·.name)).Nodup)
    (fits : d.Fits ss) {other : String → Type} (inst : Instance other ss) :
    (d.write ss inst).map some = d.table.columns.map fun c => inst.value? c.field ss := by
  have values : d.write ss inst =
      (d.table.columns.map (·.field)).filterMap (inst.value? · ss) := by
    rw [← (map_mapped derived).2, List.filterMap_map]
    rfl
  have width : (d.write ss inst).length = (d.table.columns.map (·.field)).length := by
    rw [write_eq derived distinct fits, List.length_map]
    exact (fits.model derived distinct).length_write (inst.entry ss)
  have each := List.filterMap_length_eq_length.mp (values ▸ width)
  rw [values, List.map_filterMap_some_eq_filter_map_isSome, List.filter_eq_self.mpr, List.map_map]
  · rfl
  · intro value member
    obtain ⟨field, isField, rfl⟩ := List.mem_map.mp member
    exact each field isField

/-- The place of a field is that of the column of the field. -/
theorem places_eq (derived : derive text = .ok d) :
    d.places = d.fields.map fun f => (f.name, d.table.columns.findIdx? (·.field == f.name)) := by
  refine List.map_congr_left fun f _ => ?_
  have byName := congrArg (List.findIdx? (· == f.name)) (map_mapped derived).2
  rw [List.findIdx?_map, List.findIdx?_map] at byName
  exact congrArg (Prod.mk f.name) byName

/-! ## The contract -/

/-- What is generated for a record with these slots, a model of its table, and the surface of the
table describe one contract. -/
structure Contract (d : Derivation) (ss : List Slot) (m : Model) : Prop where
  /-- The generated columns are those of the table, each with its place in a row. -/
  columns : d.columns.map (fun dc => (dc.column, dc.index)) = d.table.columns.zipIdx
  /-- The surface lists them by the same names and places. -/
  listed : (Surface.ofTable d.table).columns.map (fun c => (c.name, c.index)) =
    d.columns.map fun dc => (dc.column.name, dc.index)
  /-- A comparison can be built by name exactly if the column has its trait. -/
  conditions : ∀ dc ∈ d.columns, ∀ name, Text.sameName name dc.column.name = true →
    ∀ op values,
      (∃ built, (Surface.ofTable d.table).condition name op values = .ok built) ↔
        traitName (.compare op) ∈ dc.traits ∧ op.Takes values.length
  /-- An ordering can be built by name exactly if the column has its trait. -/
  orders : ∀ dc ∈ d.columns, ∀ name, Text.sameName name dc.column.name = true →
    ∀ direction,
      (∃ term, (Surface.ofTable d.table).order name direction = .ok term) ↔
        traitName (.order direction) ∈ dc.traits
  /-- The columns of the model are the generated ones. -/
  typed : m.columns.map (·.column) = d.columns.map (·.column)
  /-- A column of the model offers what it has a trait for. -/
  traits : ∀ dc ∈ d.columns, ∀ c ∈ m.columns, c.column = dc.column →
    ∀ capability, c.offers capability = true ↔ traitName capability ∈ dc.traits
  /-- A filter and the comparison that is built by name are one condition. -/
  compared : ∀ (c : ModelColumn) (member : c ∈ m.columns) (op : Comparison)
    (offered : c.offers (.compare op) = true) (operands : List c.type.scalar.Carrier)
    (counted : op.Takes operands.length) (name : String),
    Text.sameName name c.column.name = true →
      (Surface.ofTable d.table).condition name op (operands.map c.type.scalar.write) =
        .ok (Filter.compare c member op offered operands counted).condition
  /-- So are an ordering of the model and the one that is built by name. -/
  ordered : ∀ (o : ModelOrder m) (name : String),
    Text.sameName name o.column.column.name = true →
      (Surface.ofTable d.table).order name o.direction = .ok o.term
  /-- An insertion writes the columns that the surface says. -/
  inserted : ∀ entries : List m.Entry,
    (({} : Insertion m).insert entries).columns = (Surface.ofTable d.table).inserted
  /-- A single row is addressed as the surface says. -/
  addressed : ∀ key,
    (Target.key key : Target m).condition = .compare (Surface.ofTable d.table).target.name .eq [key]
  /-- An update by a record assigns the columns that the surface says. -/
  assigned : ∀ (u : Update m) (entry : m.Entry), ∃ more,
    (u.setEntry entry).assignments = some (u.assignments.getD [] ++ more) ∧
      more.map (·.1) = (Surface.ofTable d.table).updatable
  /-- The columns with a field are all columns of the table. -/
  mapped : d.mapped.map (·.1) = d.table.columns
  /-- An instance is written with the value of its field in each column. -/
  written : ∀ {other : String → Type} (inst : Instance other ss),
    (d.write ss inst).map some = d.table.columns.map fun c => inst.value? c.field ss
  /-- A field is read at the place of its column. -/
  places : d.places =
    d.fields.map fun f => (f.name, d.table.columns.findIdx? (·.field == f.name))
  /-- The fields are read from every place of a row, one after the other. -/
  taken : d.places.filterMap (·.2) = List.range d.table.columns.length
  /-- What is read there goes by the names of the columns. -/
  names : (Slot.record ss).map (·.name) = d.table.columnNames
  /-- An instance is read as a row of these columns. -/
  read : ∀ {other : String → Type} (absent : (field : String) → other field) (row : Row)
    (offset : Nat),
    Instance.read absent row offset ss =
      (Record.read row offset (Slot.record ss)).map (Instance.ofEntry absent ss)

/-- **One contract in two forms.** What is generated for a derived record and what the surface of
its table says agree: on the capabilities of each column, however its name is spelled, and on the
condition or ordering that they give; on the columns that are inserted, addressed and updated; and
on the places of columns and fields in a row. The fields of a record have different names, so this
is assumed of the declaration; of which types they are does not matter
(`Tabula.Source.Derivation.fits_slotsOf`). -/
theorem contract (derived : derive text = .ok d) (distinct : (d.fields.map (·.name)).Nodup)
    (fits : d.Fits ss) (m : Model) (ofTable : m.table = d.table) : Contract d ss m := by
  obtain ⟨-, -, -, faultless⟩ := derive_eq_ok derived
  obtain ⟨laidOut, mappedFields, names⟩ := isLaidOut derived distinct fits
  have columnOf {dc : DerivedColumn} (member : dc ∈ d.columns) :=
    getElem?_of_mem_columns derived member
  have columnsAre : d.columns.map (·.column) = d.table.columns := by
    have paired := congrArg (List.map Prod.fst) (map_columns derived)
    rwa [List.map_map, List.zipIdx_map_fst] at paired
  have faultlessModel : m.table.faults = [] := ofTable ▸ faultless
  constructor
  case columns => exact map_columns derived
  case listed =>
    have paired := congrArg (List.map fun p => (p.1.name, p.2)) (map_columns derived)
    rw [List.map_map] at paired
    rw [Surface.columns_ofTable, List.map_map]
    exact paired.symm
  case conditions =>
    intro dc member name same op values
    simp only [Surface.condition_ofTable faultless (columnOf member) same, DerivedColumn.mem_traits,
      exists_and_left, exists_eq, and_true]
  case orders =>
    intro dc member name same direction
    simp only [Surface.order_ofTable faultless (columnOf member) same, DerivedColumn.mem_traits,
      exists_and_left, exists_eq, and_true]
  case typed => rw [Model.map_column_columns, ofTable, columnsAre]
  case traits =>
    intro dc _ c _ same capability
    rw [DerivedColumn.mem_traits, ← same]
    rfl
  case compared =>
    intro c member op offered operands counted name same
    rw [← ofTable]
    exact Model.condition_of_filter faultlessModel member offered counted same
  case ordered =>
    intro o name same
    rw [← ofTable]
    exact Model.order_of_term faultlessModel o same
  case inserted =>
    intro entries
    rw [← ofTable]
    rfl
  case addressed =>
    intro key
    rw [← ofTable, Surface.name_target_ofTable]
    rfl
  case assigned =>
    intro u entry
    rw [← ofTable]
    exact Model.exists_setEntry u entry
  case mapped => exact (map_mapped derived).1
  case written => exact fun inst => map_write derived distinct fits inst
  case places => exact places_eq derived
  case taken =>
    have count : (Slot.mappedFields ss).length = d.table.columns.length := by
      have counts := congrArg List.length (map_mapped derived).1
      rw [List.length_map] at counts
      rw [mappedFields, List.length_map, counts]
    rw [← fits.places, List.filterMap_map, List.range_eq_range', ← count]
    exact Slot.places_of_isLaidOut laidOut
  case names => exact names
  case read =>
    intro other absent row offset
    exact Instance.read_eq laidOut row offset

/-- The slots of the fields, given what their types are. -/
def slotsOf (d : Derivation) (type : String → FieldType) : List Slot :=
  d.places.map fun p =>
    ⟨p.1, p.2.bind fun place => d.mapped[place]?.map fun m => (place, ⟨m.1.name, type p.1⟩)⟩

/-- Fields of any types have slots. -/
theorem fits_slotsOf (d : Derivation) (type : String → FieldType) : d.Fits (d.slotsOf type) := by
  constructor
  · rw [slotsOf, List.map_map]
    refine (List.map_congr_left fun p member => ?_).trans (List.map_id _)
    obtain ⟨f, -, rfl⟩ := List.mem_map.mp member
    refine congrArg (Prod.mk f.name) ?_
    cases found : d.mapped.findIdx? (·.2.name == f.name) with
    | none => rfl
    | some place =>
        have inside := (List.findIdx?_eq_some_iff_getElem.mp found).1
        simp only [Option.bind_some, List.getElem?_eq_getElem inside, Option.map_some]
  · intro s member place r isColumn
    obtain ⟨p, -, rfl⟩ := List.mem_map.mp member
    obtain ⟨place', -, isColumn⟩ := Option.bind_eq_some_iff.mp isColumn
    obtain ⟨m, found, same⟩ := Option.map_eq_some_iff.mp isColumn
    obtain ⟨rfl, rfl⟩ := Prod.mk.inj same
    exact ⟨m, found, rfl⟩

/-- A record with a field without a column, and a column under another name with one capability. -/
def shelf : String :=
  "struct Shelf \x7b cache: Cache, #[column(name = \"Label\", helpers(eq))] label: String \x7d"

/-- A shelf keeps the contract, and a comparison that its label does not offer cannot be built. -/
theorem contract_shelf :
    ∃ (d : Derivation) (m : Model), derive shelf = .ok d ∧ (d.fields.map (·.name)).Nodup ∧
      d.Fits (d.slotsOf fun _ => ⟨.text, false⟩) ∧ m.table = d.table ∧
      Contract d (d.slotsOf fun _ => ⟨.text, false⟩) m ∧
      d.places = [("cache", none), ("label", some 0)] ∧
      d.columns.map (fun dc => (dc.column.name, dc.traits)) = [("Label", ["SupportsEq"])] ∧
      ¬ ∃ built, (Surface.ofTable d.table).condition "LABEL" .lt [.text "x"] = .ok built := by
  have found : (derive shelf).toOption.map (fun d => (d.fields.map (·.name), d.places,
      d.columns.map fun dc => (dc.column.name, dc.traits))) =
      some (["cache", "label"], [("cache", none), ("label", some 0)],
        [("Label", ["SupportsEq"])]) := by
    decide +kernel
  obtain ⟨d, derived, known⟩ := Option.map_eq_some_iff.mp found
  obtain ⟨names, known⟩ := Prod.mk.inj known
  obtain ⟨places, traits⟩ := Prod.mk.inj known
  have derived := eq_ok_of_toOption derived
  have distinct : (d.fields.map (·.name)).Nodup := by
    rw [names]
    decide
  have fits := d.fits_slotsOf fun _ => ⟨.text, false⟩
  have agreed := contract derived distinct fits (fits.model derived distinct) rfl
  refine ⟨d, _, derived, distinct, fits, rfl, agreed, places, traits, fun isBuilt => ?_⟩
  obtain ⟨dc, rest, columns, first, -⟩ := List.map_eq_cons_iff.mp traits
  obtain ⟨isName, areTraits⟩ := Prod.mk.inj first
  have member : dc ∈ d.columns := columns ▸ List.mem_cons_self
  have spelled : Text.sameName "LABEL" dc.column.name = true := by
    rw [isName, Text.sameName_iff, ← String.toList_inj, Text.asciiLower, Text.asciiLower,
      String.toList_map, String.toList_map]
    decide
  have offered := ((agreed.conditions dc member "LABEL" spelled .lt [.text "x"]).mp isBuilt).1
  rw [areTraits, List.mem_singleton] at offered
  exact absurd offered (by decide +kernel)

end Derivation

end Source

end Tabula
