import Tabula.Proofs.Source.Instance
import Tabula.Proofs.Value.Normalization

/-! # Instances read from a row and written again

An instance that is read from a row is written as a normal form of that row: one value for each
column, of the storage class of its field or NULL, which reading and writing leave as they are. Most
values are those of the row. The others were read by a type that reads more than it writes, such as
an integer that is taken for a truth value or a real number
(`Tabula.Source.Derivation.normal_of_read`).
-/

namespace Tabula

private theorem FieldType.eq_of_ofText? {text : String} {t : FieldType}
    (named : ofText? text = some t) : t.optional = (splitOption text).1 ∧
      t.scalar.storage? = StorageType.infer? (splitOption text).2 := by
  have named : (Scalar.ofTypeText? (splitOption text).2).map (⟨·, (splitOption text).1⟩) =
      some t := named
  obtain ⟨s, isScalar, rfl⟩ := Option.map_eq_some_iff.mp named
  refine ⟨rfl, ?_⟩
  rw [StorageType.infer?, isScalar]
  rfl

private theorem FieldDeclaration.nullable_of_extract {f : FieldDeclaration} {c : Column}
    (extracted : f.extract = .ok c) : c.nullable = (splitOption c.typeText).1 := by
  obtain ⟨-, _, _, _, -, -, -, rfl⟩ := parts_of_extract extracted
  simp only [toColumn, nullable]

namespace Source

variable {other : String → Type} {absent : (field : String) → other field}

/-- What is read at a place of a row is read for the field that has its column there. -/
theorem Slot.exists_place {n : Nat} {ss : List Slot} (laidOut : IsLaidOut n ss) {i : Nat}
    {r : RecordColumn} (isColumn : (record ss)[i]? = some r) :
    ∃ s ∈ ss, s.column = some (n + i, r) := by
  induction ss generalizing n i with
  | nil => cases isColumn
  | cons s ss ih =>
      have among {n i : Nat} (later : ∃ s ∈ ss, s.column = some (n + i, r)) :
          ∃ s' ∈ s :: ss, s'.column = some (n + i, r) := by
        obtain ⟨s', member, isPlace⟩ := later
        exact ⟨s', List.mem_cons_of_mem _ member, isPlace⟩
      obtain ⟨field, _ | ⟨place, c⟩⟩ := s
      · exact among (ih laidOut isColumn)
      · obtain ⟨rfl, laidOut⟩ := laidOut
        cases i with
        | zero =>
            obtain rfl := Option.some.inj isColumn
            exact ⟨_, List.mem_cons_self, rfl⟩
        | succ i =>
            have later := among (ih laidOut isColumn)
            rwa [Nat.add_right_comm, Nat.add_assoc] at later

namespace Derivation

variable {text : String} {d : Derivation} {ss : List Slot}

private theorem nullable_of_derive (derived : derive text = .ok d) {c : Column}
    (member : c ∈ d.table.columns) : c.nullable = (splitOption c.typeText).1 := by
  obtain ⟨decl, -, extracted, -⟩ := derive_eq_ok derived
  obtain ⟨f, -, isColumn⟩ := decl.exists_field_of_extract extracted member
  exact FieldDeclaration.nullable_of_extract isColumn

/-- What is read and written at a place of a row is of the type of the column there. -/
theorem exists_typed (derived : derive text = .ok d) (distinct : (d.fields.map (·.name)).Nodup)
    (slots : d.slots? = some ss) {i : Nat} {c : Column}
    (isColumn : d.table.columns[i]? = some c) :
    ∃ r, (Slot.record ss)[i]? = some r ∧ FieldType.ofText? c.typeText = some r.type := by
  obtain ⟨laidOut, -, names⟩ := isLaidOut derived distinct (fits_of_slots? slots).1
  obtain ⟨columns, -⟩ := map_mapped derived
  obtain ⟨r, isPlace⟩ : ∃ r, (Slot.record ss)[i]? = some r := by
    have named : d.table.columnNames[i]? = some c.name := by
      rw [Table.columnNames, List.getElem?_map, isColumn]
      rfl
    rw [← names, List.getElem?_map] at named
    obtain ⟨r, isPlace, -⟩ := Option.map_eq_some_iff.mp named
    exact ⟨r, isPlace⟩
  refine ⟨r, isPlace, ?_⟩
  obtain ⟨s, member, hasPlace⟩ := Slot.exists_place laidOut isPlace
  obtain ⟨p, atPlace, typed⟩ := typed_of_slots? slots member hasPlace
  have same : p.1 = c := by
    rw [← columns, List.getElem?_map, ← Nat.zero_add i, atPlace] at isColumn
    exact Option.some.inj isColumn
  obtain ⟨t, named, rfl⟩ := Option.map_eq_some_iff.mp typed
  exact same ▸ named

/-- **Reading a row and writing it gives a normal form of it.** For a record whose columns have
types that are known, what is written of an instance that was read from a row is read again, and
written as it was. It has one value for each column. The value is NULL exactly where the column may
be NULL and the row has NULL, and is of the storage class of the field's type elsewhere. It is the
value of the row, every NaN being taken for the same, or what the type turns that into. -/
theorem normal_of_read (derived : derive text = .ok d) (distinct : (d.fields.map (·.name)).Nodup)
    (slots : d.slots? = some ss) {row : Row} {inst : Instance other ss}
    (reads : Instance.read absent row 0 ss = .ok inst) :
    (∃ again, Instance.read absent (d.write ss inst) 0 ss = .ok again ∧
      d.write ss again = d.write ss inst) ∧
    (d.write ss inst).length = d.table.columns.length ∧
    ∀ (i : Nat) (c : Column), d.table.columns[i]? = some c →
      ∃ v w t, row[i]? = some v ∧ (d.write ss inst)[i]? = some w ∧
        FieldType.ofText? c.typeText = some t ∧
        (w = .null ↔ c.nullable = true ∧ v = .null) ∧
        (w ≠ .null → w.storage? = StorageType.infer? (splitOption c.typeText).2) ∧
        (w.Alike v ∨ t.scalar.Turns v w) := by
  obtain ⟨fits, named⟩ := fits_of_slots? slots
  obtain ⟨laidOut, -, names⟩ := isLaidOut derived distinct fits
  have readsAt (row : Row) : Instance.read absent row 0 ss =
      (Record.read row 0 (Slot.record ss)).map (Instance.ofEntry absent ss) :=
    Instance.read_eq laidOut row 0
  have written (r : Record (Slot.record ss)) :
      d.write ss (Instance.ofEntry absent ss r) = Record.write (Slot.record ss) r := by
    rw [write_eq derived distinct fits, Instance.entry_ofEntry]
  obtain ⟨r, isRead, rfl⟩ := map_eq_ok ((readsAt row).symm.trans reads)
  rw [written]
  refine ⟨?_, ?_, fun i c isColumn => ?_⟩
  · obtain ⟨again, isReadAgain, same⟩ := Record.read_again named r []
    refine ⟨Instance.ofEntry absent ss again, ?_, (written again).trans same⟩
    have isReadAgain : Record.read (Record.write (Slot.record ss) r) 0 (Slot.record ss) =
        .ok again := isReadAgain
    rw [readsAt, isReadAgain]
    rfl
  · have lengths := congrArg List.length names
    rwa [Table.columnNames, List.length_map, List.length_map, ← Record.length_write _ r] at lengths
  · obtain ⟨column, isPlace, isType⟩ := exists_typed derived distinct slots isColumn
    obtain ⟨optional, storage⟩ := FieldType.eq_of_ofText? isType
    have nullable := nullable_of_derive derived (List.mem_of_getElem? isColumn)
    obtain ⟨v, x, isValue, isReadThere, isWritten⟩ :=
      Record.place_of_read [] isRead isPlace
    obtain ⟨isNull, ofClass, turns⟩ :=
      FieldType.write_of_read (named column (List.mem_of_getElem? isPlace)) isReadThere
    rw [optional, ← nullable] at isNull
    rw [storage] at ofClass
    exact ⟨v, _, column.type, isValue, isWritten, isType, isNull, ofClass, turns⟩

/-- What is read of a row with an integer in the place of a real number, with a number in the field
without a column. -/
def wholeScore (cache : Nat) : Instance (fun _ => Nat) interleavedSlots :=
  (some (⟨0x40400000⟩ : Binary32), cache, ⟨8, by decide⟩, ())

/-- An integer in the place of a real is read as that real, which is written and read again. -/
theorem normal_of_read_wholeScore :
    ∃ d, derive interleaved = .ok d ∧ (d.fields.map (·.name)).Nodup ∧
      d.slots? = some interleavedSlots ∧
      Instance.read (fun _ => 0) [.integer 3, .integer 8, .text "more"] 0 interleavedSlots =
        .ok (wholeScore 0) ∧
      (∃ again, Instance.read (fun _ => 0) (d.write interleavedSlots (wholeScore 0)) 0
        interleavedSlots = .ok again ∧
          d.write interleavedSlots again = d.write interleavedSlots (wholeScore 0)) ∧
      (d.write interleavedSlots (wholeScore 0)).length = d.table.columns.length := by
  obtain ⟨d, derived, distinct, slots⟩ := derive_interleaved
  have reads : Instance.read (fun _ => 0) [.integer 3, .integer 8, .text "more"] 0
      interleavedSlots = .ok (wholeScore 0) := by
    have score : (Binary64.ofInt (3 : Int64).toInt).narrow = ⟨0x40400000⟩ := by
      decide +kernel
    rw [wholeScore, ← score]
    rfl
  obtain ⟨again, lengths, -⟩ := normal_of_read derived distinct slots reads
  exact ⟨d, derived, distinct, slots, reads, again, lengths⟩

end Derivation

end Source

end Tabula
