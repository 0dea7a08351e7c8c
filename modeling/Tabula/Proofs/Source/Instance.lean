import Mathlib.Data.List.Nodup
import Tabula.Proofs.Source.Derivation
import Tabula.Proofs.Value.RoundTrip
import Tabula.Source.Instance

/-! # Instances come back from rows

What is generated for a record goes by two lists, the columns for writing and the fields for
reading. They agree: the fields that have a column take the places of a row one by one
(`Tabula.Source.Derivation.isLaidOut`), so that an instance is written as the record of its
columns and read as one (`Tabula.Source.Derivation.write_eq`, `Tabula.Source.Instance.read_eq`). So
an instance comes back from any row that holds its values, whatever stands around them, with
the defaults of the fields that have no column; and reading looks at nothing before its offset
(`Tabula.Source.Derivation.read_written`).
-/

namespace Tabula

namespace Source

variable {other : String → Type} {absent : (field : String) → other field}

/-! ## Slots -/

namespace Slot

/-- What is read in the fields that have a column. -/
def record (ss : List Slot) : List RecordColumn :=
  ss.filterMap fun s => s.column.map (·.2)

/-- The fields that have a column. -/
def mappedFields (ss : List Slot) : List String :=
  ss.filterMap fun s => s.column.map fun _ => s.field

/-- Whether the fields that have a column take the places of a row one by one from a place on. -/
def IsLaidOut : Nat → List Slot → Prop
  | _, [] => True
  | n, ⟨_, some (place, _)⟩ :: ss => place = n ∧ IsLaidOut (n + 1) ss
  | n, ⟨_, none⟩ :: ss => IsLaidOut n ss

/-- With a row before it, a field is read at a place moved by its length, in its errors too. -/
theorem read_shift (before row : Row) (offset : Nat) (s : Slot) :
    s.read absent (before ++ row) (before.length + offset) =
      (s.read absent row offset).mapError (RowError.shift before.length) := by
  obtain ⟨field, _ | ⟨place, c⟩⟩ := s
  · rfl
  · rw [read, read, Nat.add_assoc, Row.read_shift]
    rfl

end Slot

namespace Instance

/-- The record of the fields that have a column. -/
def entry : (ss : List Slot) → Instance other ss → Record (Slot.record ss)
  | [], _ => ()
  | ⟨_, some _⟩ :: ss, (x, rest) => (x, entry ss rest)
  | ⟨_, none⟩ :: ss, (_, rest) => entry ss rest

/-- The instance of a record, with the defaults of the fields without a column. -/
def ofEntry (absent : (field : String) → other field) :
    (ss : List Slot) → Record (Slot.record ss) → Instance other ss
  | [], _ => ()
  | ⟨_, some _⟩ :: ss, (x, rest) => (x, ofEntry absent ss rest)
  | ⟨field, none⟩ :: ss, r => (absent field, ofEntry absent ss r)

/-- Whether what the columns of an instance hold is free of NaN. -/
def IsNumber (ss : List Slot) (inst : Instance other ss) : Prop :=
  Record.IsNumber (Slot.record ss) (inst.entry ss)

/-- The instance of the record of an instance has the defaults in the fields without a column. -/
theorem ofEntry_entry (ss : List Slot) (inst : Instance other ss) :
    ofEntry absent ss (inst.entry ss) = inst.reset absent ss := by
  induction ss with
  | nil => rfl
  | cons s ss ih =>
      obtain ⟨x, rest⟩ := inst
      obtain ⟨field, _ | ⟨place, c⟩⟩ := s <;>
        exact congrArg (Prod.mk _) (ih rest)

/-- The record of the instance of a record is the record. -/
theorem entry_ofEntry (ss : List Slot) (r : Record (Slot.record ss)) :
    entry ss (ofEntry absent ss r) = r := by
  induction ss with
  | nil => rfl
  | cons s ss ih =>
      obtain ⟨field, _ | ⟨place, c⟩⟩ := s
      · exact ih r
      · exact congrArg (Prod.mk r.1) (ih r.2)

/-- The fields of an instance are read as the record of the columns. -/
theorem read_eq {n : Nat} {ss : List Slot} (laidOut : Slot.IsLaidOut n ss) (row : Row)
    (offset : Nat) :
    read absent row offset ss =
      (Record.read row (offset + n) (Slot.record ss)).map (ofEntry absent ss) := by
  induction ss generalizing n with
  | nil => rfl
  | cons s ss ih =>
      obtain ⟨field, _ | ⟨place, c⟩⟩ := s
      · have others := ih laidOut
        rw [read, others]
        change _ = (Record.read row (offset + n) (Slot.record ss)).map _
        cases Record.read row (offset + n) (Slot.record ss) <;> rfl
      · obtain ⟨rfl, laidOut⟩ := laidOut
        have others := ih laidOut
        rw [read, others]
        change _ = (Record.read row (offset + place) (c :: Slot.record ss)).map _
        rw [Record.read, Slot.read, Nat.add_assoc]
        cases row.read c.type (offset + place) c.name with
        | error e => rfl
        | ok x => cases Record.read row (offset + (place + 1)) (Slot.record ss) <;> rfl

/-- Reading looks at nothing before its offset: what stands there moves errors only. -/
theorem read_shift (before row : Row) (offset : Nat) (ss : List Slot) :
    read absent (before ++ row) (before.length + offset) ss =
      (read absent row offset ss).mapError (RowError.shift before.length) := by
  induction ss with
  | nil => rfl
  | cons s ss ih =>
      rw [read, read, ih, Slot.read_shift]
      cases s.read absent row offset with
      | error e => rfl
      | ok x => cases read absent row offset ss <;> rfl

/-- The values of the fields that have a column are those of the record of the columns. -/
theorem filterMap_value? {ss : List Slot} (distinct : (ss.map (·.field)).Nodup)
    (inst : Instance other ss) :
    (Slot.mappedFields ss).filterMap (inst.value? · ss) =
      Record.write (Slot.record ss) (inst.entry ss) := by
  induction ss with
  | nil => rfl
  | cons s ss ih =>
      obtain ⟨new, distinct⟩ := List.nodup_cons.mp distinct
      have others : (Slot.mappedFields ss).filterMap (inst.value? · (s :: ss)) =
          Record.write (Slot.record ss) (Instance.entry ss inst.2) := by
        rw [← ih distinct]
        refine List.filterMap_congr fun name member => ?_
        obtain ⟨s', among, hasColumn⟩ := List.mem_filterMap.mp member
        obtain ⟨-, -, rfl⟩ := Option.map_eq_some_iff.mp hasColumn
        refine if_neg fun same => new ?_
        exact List.mem_map.mpr ⟨s', among, same.symm⟩
      obtain ⟨field, _ | ⟨place, c⟩⟩ := s
      · exact others
      · change List.filterMap _ (field :: Slot.mappedFields ss) = _
        have first : inst.value? field (⟨field, some (place, c)⟩ :: ss) =
            some (c.type.write inst.1) := if_pos rfl
        refine (List.filterMap_cons_some (f := (inst.value? · (_ :: ss))) first).trans ?_
        exact congrArg (List.cons _) others

end Instance

/-! ## Derived records -/

namespace Derivation

variable {d : Derivation}

/-- Slots are those of the fields of a derived record: each at the place of its column, if there is
one, and by the name of the column. What type a field has is not said; its type expression tells of
the types that have a storage class of their own (`Tabula.Source.Derivation.fits_of_slots?`). -/
structure Fits (d : Derivation) (ss : List Slot) : Prop where
  places : ss.map (fun s => (s.field, s.column.map (·.1))) = d.places
  named : ∀ s ∈ ss, ∀ place r, s.column = some (place, r) →
    ∃ p, d.mapped[place]? = some p ∧ p.1.name = r.name

/-- A field without a column among the first ones has its column where it is among the others. -/
theorem findIdx?_append_named {done rest : List (Column × FieldSource)} {name : String}
    (earlier : ∀ p ∈ done, p.2.name ≠ name) :
    (done ++ rest).findIdx? (·.2.name == name) =
      (rest.findIdx? (·.2.name == name)).map (· + done.length) := by
  have none : done.findIdx? (·.2.name == name) = none :=
    List.findIdx?_eq_none_iff.mpr fun p member => beq_eq_false_iff_ne.mpr (earlier p member)
  rw [List.findIdx?_append, none]
  rfl

/-- Fields that come in the order of their columns take the places after those of the columns
before. -/
theorem laidOut_of_split {fs : List FieldSource} {done rest : List (Column × FieldSource)}
    (split : d.mapped = done ++ rest) (distinct : (fs.map (·.name)).Nodup)
    (ordered : (rest.map (·.2.name)).Sublist (fs.map (·.name)))
    (earlier : ∀ p ∈ done, p.2.name ∉ fs.map (·.name)) {ss : List Slot}
    (places : ss.map (fun s => (s.field, s.column.map (·.1))) =
      fs.map fun f => (f.name, d.mapped.findIdx? (·.2.name == f.name)))
    (named : ∀ s ∈ ss, ∀ place r, s.column = some (place, r) →
      ∃ p, d.mapped[place]? = some p ∧ p.1.name = r.name) :
    Slot.IsLaidOut done.length ss ∧ Slot.mappedFields ss = rest.map (·.2.name) ∧
      (Slot.record ss).map (·.name) = rest.map (·.1.name) := by
  induction fs generalizing done rest ss with
  | nil =>
      obtain rfl := List.map_eq_nil_iff.mp places
      obtain rfl := List.map_eq_nil_iff.mp (List.sublist_nil.mp ordered)
      exact ⟨trivial, rfl, rfl⟩
  | cons f fs ih =>
      obtain ⟨⟨field, column⟩, ss, rfl, isFirst, others⟩ := List.map_eq_cons_iff.mp places
      obtain ⟨rfl, isPlace⟩ := Prod.mk.inj isFirst
      obtain ⟨new, distinct⟩ := List.nodup_cons.mp distinct
      have named' := fun s (member : s ∈ ss) => named s (List.mem_cons_of_mem _ member)
      have earlier' : ∀ p ∈ done, p.2.name ∉ fs.map (·.name) := fun p member inside =>
        earlier p member (List.mem_cons_of_mem _ inside)
      have before : ∀ p ∈ done, p.2.name ≠ f.name := fun p member same =>
        earlier p member (same ▸ List.mem_cons_self)
      rw [split, findIdx?_append_named before] at isPlace
      rcases List.sublist_cons_iff.mp ordered with unmapped | ⟨names, isHead, mapped⟩
      · -- no column is of the field
        have none : rest.findIdx? (·.2.name == f.name) = none := by
          refine List.findIdx?_eq_none_iff.mpr fun p member => ?_
          refine beq_eq_false_iff_ne.mpr fun same => new ?_
          have inside : p.2.name ∈ fs.map (·.name) :=
            unmapped.subset (List.mem_map_of_mem member)
          rw [same] at inside
          exact inside
        rw [none] at isPlace
        obtain rfl := Option.map_eq_none_iff.mp isPlace
        have laidOut := ih split distinct unmapped earlier' others named'
        exact laidOut
      · -- the first column is that of the field
        obtain ⟨⟨c, f'⟩, rest, rfl, same, rfl⟩ := List.map_eq_cons_iff.mp isHead
        have first : List.findIdx? (·.2.name == f.name) ((c, f') :: rest) = some 0 := by
          rw [List.findIdx?_cons, if_pos (beq_iff_eq.mpr same)]
        have atPlace : d.mapped[0 + done.length]? = some (c, f') := by
          rw [split, Nat.zero_add, List.getElem?_append_right (Nat.le_refl _), Nat.sub_self]
          rfl
        rw [first] at isPlace
        obtain ⟨⟨_, r⟩, rfl, rfl⟩ := Option.map_eq_some_iff.mp isPlace
        obtain ⟨p, isColumn, isName⟩ := named _ List.mem_cons_self _ r rfl
        obtain rfl := Option.some.inj (atPlace.symm.trans isColumn)
        have split' : d.mapped = (done ++ [(c, f')]) ++ rest := by
          rw [split, List.append_assoc, List.singleton_append]
        have earlier'' : ∀ p ∈ done ++ [(c, f')], p.2.name ∉ fs.map (·.name) := by
          intro p member
          rcases List.mem_append.mp member with old | last
          · exact earlier' p old
          · obtain rfl := List.mem_singleton.mp last
            exact same ▸ new
        obtain ⟨laidOut, fields, names⟩ := ih split' distinct mapped earlier'' others named'
        rw [List.length_append] at laidOut
        exact ⟨⟨Nat.zero_add _, laidOut⟩, congr (congrArg List.cons same.symm) fields,
          congr (congrArg List.cons isName.symm) names⟩

variable {text : String} {ss : List Slot}

/-- Slots that fit are those of all fields, in their order. -/
theorem Fits.fields (fits : d.Fits ss) : ss.map (·.field) = d.fields.map (·.name) := by
  have names := congrArg (List.map (·.1)) fits.places
  rw [Derivation.places, List.map_map, List.map_map] at names
  exact names

/-- The fields of a derived record that have a column take the places of a row one by one, and go by
the names of the columns. -/
theorem isLaidOut (derived : derive text = .ok d) (distinct : (d.fields.map (·.name)).Nodup)
    (fits : d.Fits ss) :
    Slot.IsLaidOut 0 ss ∧ Slot.mappedFields ss = d.mapped.map (·.2.name) ∧
      (Slot.record ss).map (·.name) = d.table.columnNames := by
  have ordered := fields_sublist derived
  obtain ⟨columns, fields⟩ := map_mapped derived
  obtain ⟨laidOut, mapped, names⟩ := laidOut_of_split (List.nil_append _).symm distinct
    (fields ▸ ordered) (fun p none => absurd none List.not_mem_nil) fits.places fits.named
  refine ⟨laidOut, mapped, names.trans ?_⟩
  rw [Table.columnNames, ← columns, List.map_map]
  rfl

/-- A slot is that of its field, at the place of the column and by the column's name and type. -/
theorem slot?_eq_some {field : String} {place : Option Nat} {s : Slot}
    (isSlot : d.slot? field place = some s) :
    (s.field, s.column.map (·.1)) = (field, place) ∧ ∀ place r, s.column = some (place, r) →
      ∃ p, d.mapped[place]? = some p ∧ p.1.typed? = some r := by
  cases place with
  | none =>
      obtain rfl := Option.some.inj isSlot
      exact ⟨rfl, fun place r absurd => by cases absurd⟩
  | some place =>
      obtain ⟨⟨c, f⟩, isColumn, isSlot⟩ := Option.bind_eq_some_iff.mp isSlot
      obtain ⟨r, typed, isSlot⟩ := Option.bind_eq_some_iff.mp isSlot
      obtain rfl := Option.some.inj isSlot
      refine ⟨rfl, fun place' r' isColumn' => ?_⟩
      obtain ⟨rfl, rfl⟩ := Prod.mk.inj (Option.some.inj isColumn')
      exact ⟨_, isColumn, typed⟩

/-- The slots of fields are at their places. -/
theorem slots_of_mapM {ps : List (String × Option Nat)}
    (slots : (ps.mapM fun p => d.slot? p.1 p.2) = some ss) :
    ss.map (fun s => (s.field, s.column.map (·.1))) = ps ∧
      ∀ s ∈ ss, ∃ p : String × Option Nat, d.slot? p.1 p.2 = some s := by
  induction ps generalizing ss with
  | nil =>
      obtain rfl := Option.some.inj slots
      exact ⟨rfl, fun s none => absurd none List.not_mem_nil⟩
  | cons p ps ih =>
      rw [List.mapM_cons] at slots
      obtain ⟨first, isFirst, slots⟩ := Option.bind_eq_some_iff.mp slots
      obtain ⟨rest, areRest, slots⟩ := Option.bind_eq_some_iff.mp slots
      obtain rfl := Option.some.inj slots
      obtain ⟨places, each⟩ := ih areRest
      refine ⟨congr (congrArg List.cons (slot?_eq_some isFirst).1) places, fun s member => ?_⟩
      rcases List.mem_cons.mp member with rfl | later
      · exact ⟨p, isFirst⟩
      · exact each s later

/-- Each slot with a column is of the column at its place, as the type expression there says. -/
theorem typed_of_slots? (slots : d.slots? = some ss) {s : Slot} (member : s ∈ ss) {place : Nat}
    {r : RecordColumn} (isColumn : s.column = some (place, r)) :
    ∃ p, d.mapped[place]? = some p ∧ p.1.typed? = some r := by
  obtain ⟨p, isSlot⟩ := (slots_of_mapM slots).2 s member
  exact (slot?_eq_some isSlot).2 place r isColumn

/-- The slots that are read off the type expressions are those of the fields. -/
theorem fits_of_slots? (slots : d.slots? = some ss) :
    d.Fits ss ∧ ∀ r ∈ Slot.record ss, r.type.scalar ≠ .value := by
  refine ⟨⟨(slots_of_mapM slots).1, fun s member place r isColumn => ?_⟩, fun r member => ?_⟩
  · obtain ⟨p, isPlace, typed⟩ := typed_of_slots? slots member isColumn
    exact ⟨p, isPlace, (Column.name_of_typed? typed).symm⟩
  · obtain ⟨s, among, isColumn⟩ := List.mem_filterMap.mp member
    obtain ⟨⟨place, _⟩, hasColumn, rfl⟩ := Option.map_eq_some_iff.mp isColumn
    obtain ⟨p, -, typed⟩ := typed_of_slots? slots among hasColumn
    obtain ⟨type, named, rfl⟩ := Option.map_eq_some_iff.mp typed
    exact FieldType.ne_value_of_ofText? named

/-- An instance is written as the record of its columns. -/
theorem write_eq (derived : derive text = .ok d) (distinct : (d.fields.map (·.name)).Nodup)
    (fits : d.Fits ss) (inst : Instance other ss) :
    d.write ss inst = Record.write (Slot.record ss) (inst.entry ss) := by
  obtain ⟨-, mapped, -⟩ := isLaidOut derived distinct fits
  rw [← Instance.filterMap_value? (fits.fields ▸ distinct), mapped, List.filterMap_map]
  rfl

/-- **An instance comes back from any row that holds its values**, with the defaults of the fields
that have no column, and what stands before the offset changes nothing but the places in errors.
The fields of a record have different names, so this is assumed of the declaration. -/
theorem read_written (derived : derive text = .ok d) (distinct : (d.fields.map (·.name)).Nodup)
    (slots : d.slots? = some ss) (absent : (field : String) → other field) :
    (∀ inst : Instance other ss, inst.IsNumber ss → ∀ before after : Row,
      Instance.read absent (before ++ d.write ss inst ++ after) before.length ss =
        .ok (inst.reset absent ss)) ∧
    ∀ before row : Row,
      Instance.read absent (before ++ row) before.length ss =
        (Instance.read absent row 0 ss).mapError (RowError.shift before.length) := by
  obtain ⟨fits, named⟩ := fits_of_slots? slots
  obtain ⟨laidOut, -, -⟩ := isLaidOut derived distinct fits
  constructor
  · intro inst number before after
    have back := Record.read_write named number before after
    calc
      Instance.read absent (before ++ d.write ss inst ++ after) before.length ss
        = (Record.read (before ++ d.write ss inst ++ after) before.length
            (Slot.record ss)).map (Instance.ofEntry absent ss) := Instance.read_eq laidOut _ _
      _ = .ok (Instance.ofEntry absent ss (inst.entry ss)) := by
        rw [write_eq derived distinct fits, List.append_assoc, back]
        rfl
      _ = .ok (inst.reset absent ss) := by rw [Instance.ofEntry_entry]
  · intro before row
    exact Instance.read_shift before row 0 ss

/-- A record with a field without a column between the others. -/
def interleaved : String :=
  "struct Reading \x7b #[column] score: Option<f32>, cache: Cache, #[primary_key] id: i64 \x7d"

def interleavedSlots : List Slot :=
  [⟨"score", some (0, ⟨"score", ⟨.single, true⟩⟩)⟩, ⟨"cache", none⟩,
    ⟨"id", some (1, ⟨"id", ⟨.int .i64, false⟩⟩)⟩]

/-- An instance of it, with a number in the field without a column. -/
def interleavedInstance (cache : Nat) : Instance (fun _ => Nat) interleavedSlots :=
  (some (⟨0x3fc00000⟩ : Binary32), cache, ⟨12, by decide⟩, ())

/-- The record with a field between two columns can be derived. -/
theorem derive_interleaved :
    ∃ d, derive interleaved = .ok d ∧ (d.fields.map (·.name)).Nodup ∧
      d.slots? = some interleavedSlots := by
  have found : (derive interleaved).toOption.map (fun d => (d.fields.map (·.name), d.slots?)) =
      some (["score", "cache", "id"], some interleavedSlots) := by
    decide +kernel
  obtain ⟨d, derived, known⟩ := Option.map_eq_some_iff.mp found
  obtain ⟨names, slots⟩ := Prod.mk.inj known
  have distinct : (d.fields.map (·.name)).Nodup := by
    rw [names]
    decide
  exact ⟨d, eq_ok_of_toOption derived, distinct, slots⟩

/-- The instance is read from the middle of a row with the default in its field without a column,
and NULL in a column that takes none is told by its place. -/
theorem read_written_interleaved :
    ∃ d, derive interleaved = .ok d ∧ (d.fields.map (·.name)).Nodup ∧
      d.slots? = some interleavedSlots ∧
      (interleavedInstance 7).IsNumber interleavedSlots ∧
      Instance.read (fun _ => 0)
        ([.null] ++ d.write interleavedSlots (interleavedInstance 7) ++ [.null])
        1 interleavedSlots = .ok (interleavedInstance 0) ∧
      Instance.read (fun _ => (0 : Nat)) ([.null] ++ [.null, .text "x"]) 1 interleavedSlots =
        .error (.value "id" 2 (.mismatch (.int .i64) .text)) := by
  obtain ⟨d, derived, distinct, slots⟩ := derive_interleaved
  have number : (interleavedInstance 7).IsNumber interleavedSlots := by
    refine ⟨fun y isScore => ?_, trivial, trivial⟩
    obtain rfl := Option.some.inj isScore
    rfl
  obtain ⟨back, shifted⟩ := read_written derived distinct slots fun _ => (0 : Nat)
  exact ⟨d, derived, distinct, slots, number, back _ number [.null] [.null],
    (shifted [.null] [.null, .text "x"]).trans rfl⟩

end Derivation

end Source

end Tabula
