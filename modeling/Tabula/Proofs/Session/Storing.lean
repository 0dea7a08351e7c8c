import Tabula.Proofs.Engine.StoredRow
import Tabula.Proofs.Source.Instance
import Tabula.Session.Records

/-! # Stored instances

An instance of a derived record that is inserted with a value for each column is read back, with the
defaults of the fields that have no column, exactly if every column keeps what its field holds
(`Tabula.Source.Derivation.select_of_insert`). The storage class of a column may be written apart from
the type of its field, so not every column does: a text of digits becomes a number in a column of
numbers (`Tabula.Source.Derivation.select_of_insert_digits`).
-/

namespace Tabula

/-! ## What a model says about its table -/

section Columns

variable {m : Model}

private theorem isSome_cell? {t : Table} {c : Column} (member : c ∈ t.columns) :
    (t.cell? c.name).isSome = true := by
  have same : Text.sameName c.name c.name = true := Text.sameName_refl _
  obtain ⟨place, isPlace⟩ : ∃ place, t.index? c.name = some place :=
    Option.isSome_iff_exists.mp
      ((List.findIdx?_isSome).trans (List.any_eq_true.mpr ⟨c, member, same⟩))
  obtain ⟨found, isFound⟩ : ∃ found, t.find? c.name = some found :=
    Option.isSome_iff_exists.mp (List.find?_isSome.mpr ⟨c, member, same⟩)
  rw [Table.cell?, isPlace, isFound]
  rfl

/-- The columns of a model are those of its table. -/
theorem ModelColumn.mem_columns {c : ModelColumn} (member : c ∈ m.columns) :
    c.column ∈ m.table.columns := by
  obtain ⟨i, place⟩ := List.getElem?_of_mem member
  rw [Model.columns, List.getElem?_zipWith] at place
  split at place
  · rename_i column type isColumn isType
    obtain rfl := Option.some.inj place
    exact List.mem_of_getElem? isColumn
  · cases place

/-- The table of a model knows the column of every filter. -/
theorem Filter.isKnown (f : Filter m) : f.condition.isKnown m.table = true := by
  induction f with
  | compare c member op offered operands counted =>
      exact isSome_cell? (ModelColumn.mem_columns member)
  | both left right ihl ihr => exact Bool.and_eq_true_iff.mpr ⟨ihl, ihr⟩
  | either left right ihl ihr => exact Bool.and_eq_true_iff.mpr ⟨ihl, ihr⟩

/-- The table of a model knows the columns of every order. -/
theorem ModelOrder.exists_cells (orders : List (ModelOrder m)) :
    ∃ order, OrderTerm.cells? m.table (orders.map (·.term)) = some order := by
  induction orders with
  | nil => exact ⟨[], rfl⟩
  | cons o orders ih =>
      obtain ⟨rest, others⟩ := ih
      have member := ModelColumn.mem_columns o.mem
      obtain ⟨cell, isCell⟩ := Option.isSome_iff_exists.mp (isSome_cell? member)
      refine ⟨(cell, o.direction) :: rest, ?_⟩
      unfold OrderTerm.cells? at others ⊢
      rw [List.map_cons, List.mapM_cons, others, term, isCell]
      rfl

end Columns

/-- The selection is of the row at a position alone, its window does not leave it out, and it is not
too much for the engine. -/
structure Selection.Picks {m : Model} (s : Selection m) (t : StoredTable) (rowid : Int64) : Prop where
  only : ∀ r ∈ t.rows, t.meets s.conditions r = (r.rowid == rowid)
  within : ∀ row : Row, window? s.limit s.offset [row] = some [row]
  taken : s.select.isTaken = true

namespace Insertion

variable {m : Model} {i : Insertion m}

private theorem insert_of_complete (complete : i.omitsAutoKey = false) (entry : m.Entry) :
    i.insert [entry] =
      ⟨i.policy, m.table.name, m.table.columnNames, [m.write entry]⟩ := by
  have written (c : Column) : i.writes c = true := by
    rw [writes, complete, Bool.false_and, Bool.not_false]
  have columns : i.columns = m.table.columns :=
    List.filter_eq_self.mpr fun c _ => written c
  have values : i.row entry = m.write entry := by
    rw [row, List.filter_eq_self.mpr fun cv _ => written cv.1]
    exact List.map_snd_zip (m.length_write entry).le
  rw [insert, columns, List.map_singleton, values]
  rfl

end Insertion

/-- An answer is known by its result and by the connection that it leaves. -/
theorem Answer.eq_ok {α : Type} {r : Answer α} {a : α} {e : Engine}
    (answers : r.1.toOption = some a) (leaves : r.2 = e) : r = (.ok a, e) := by
  obtain ⟨result, engine⟩ := r
  obtain rfl : engine = e := leaves
  cases result with
  | error x => cases answers
  | ok b => rw [Option.some.inj answers]

/-- Where a record got a position, its statement was done and wrote a row. -/
theorem Records.insert_eq_ok {m : Model} {i : Insertion m} {entry : m.Entry} {e e' : Engine}
    {rowid : Int64} (inserted : Records.insert i entry e = (.ok (some rowid), e')) :
    ∃ changed, 0 < changed ∧
      e.contents.insert e.enforced (i.insert [entry]) = .done e'.contents changed (some rowid) := by
  unfold Records.insert Engine.insert Engine.change at inserted
  dsimp only at inserted
  cases ended : e.contents.insert e.enforced (i.insert [entry]) with
  | refused c =>
      rw [ended] at inserted
      cases inserted
  | reverted =>
      rw [ended] at inserted
      cases inserted
  | done c changed last =>
      rw [ended] at inserted
      obtain ⟨answer, rfl⟩ := Prod.mk.inj inserted
      have answer : (if 0 < changed then last else none) = some rowid := Except.ok.inj answer
      split at answer
      · rename_i counted
        exact ⟨changed, counted, by rw [answer]⟩
      · cases answer

namespace Source

variable {other : String → Type} {absent : (field : String) → other field}

/-- The instances that a selection reads, each row as it is read for the record. -/
def instances {m : Model} (absent : (field : String) → other field) (ss : List Slot)
    (s : Selection m) (e : Engine) (plan : Plan) : Except SessionError (List (Instance other ss)) :=
  match e.contents.select s.select plan with
  | none => .error .database
  | some rows => (rows.mapM fun row => Instance.read absent row 0 ss).mapError .row

namespace Derivation

variable {d : Derivation} {text : String} {ss : List Slot}

/-- The model of a derived record, given the types of its fields. -/
abbrev Fits.model (fits : d.Fits ss) (derived : derive text = .ok d)
    (distinct : (d.fields.map (·.name)).Nodup) : Model :=
  ⟨d.table, Slot.record ss, (isLaidOut derived distinct fits).2.2⟩

/-- **A stored instance is read back exactly if the columns keep it.** The insertion of an instance
without NaN and negative zero, with a value for each column, leaves one row at the position that it
answers. A selection of this row reads the instance with the defaults of the fields that have no
column if every column keeps what its field holds, and something else or nothing otherwise. -/
theorem select_of_insert (derived : derive text = .ok d) (distinct : (d.fields.map (·.name)).Nodup)
    (fits : d.Fits ss) {e e' : Engine} {t : StoredTable}
    (found : e.contents.table? d.table.name = some t) (migrated : t.definition = d.table)
    {inst : Instance other ss} (plain : Record.IsPlain (Slot.record ss) (inst.entry ss))
    {rowid : Int64}
    (inserted : Records.insert (m := fits.model derived distinct) ⟨.unset, false⟩ (inst.entry ss) e =
      (.ok (some rowid), e')) :
    ∃ t', e'.contents.table? d.table.name = some t' ∧
      (∃ r, t'.rows.filter (·.rowid == rowid) = [r]) ∧
      ∀ (absent : (field : String) → other field) (s : Selection (fits.model derived distinct)),
        s.Picks t' rowid → ∀ plan : Plan,
        (instances absent ss s e' plan = .ok [inst.reset absent ss] ↔
          Record.Keeps d.table.columns (Slot.record ss) (inst.entry ss)) := by
  obtain ⟨laidOut, -, names⟩ := isLaidOut derived distinct fits
  obtain ⟨-, -, -, faultless⟩ := derive_eq_ok derived
  have lengths : d.table.columns.length = (Slot.record ss).length := by
    have counts := congrArg List.length names
    rw [List.length_map, Table.columnNames, List.length_map] at counts
    exact counts.symm
  have faultlessT : t.definition.faults = [] := migrated ▸ faultless
  obtain ⟨changed, counted, done⟩ := Records.insert_eq_ok inserted
  rw [Insertion.insert_of_complete rfl] at done
  have complete : ((fits.model derived distinct).write (inst.entry ss)).length =
      t.definition.columns.length := by
    rw [migrated, lengths]
    exact Record.length_write (Slot.record ss) (inst.entry ss)
  obtain ⟨_, stored, t', answer, stores, found', definition, only⟩ :=
    Contents.stores_of_insert found faultlessT (by rw [migrated]) rfl complete done counted
  obtain rfl := Option.some.inj answer
  rw [migrated] at stores definition
  refine ⟨t', found', ⟨_, only⟩, fun absent s picks plan => ?_⟩
  have known : t'.knows s.conditions = true := by
    refine List.all_eq_true.mpr fun condition member => ?_
    obtain ⟨f, -, rfl⟩ := List.mem_map.mp member
    rw [definition]
    exact f.isKnown
  obtain ⟨order, ordered⟩ := ModelOrder.exists_cells s.orders
  have picked : t'.filter s.conditions = [⟨rowid, stored⟩] := by
    rw [← only]
    exact List.filter_congr picks.only
  have width : stored.length = t'.definition.columns.length := by
    have counts := stores.length_eq
    rw [List.length_zip, complete, migrated, Nat.min_self] at counts
    rw [definition, counts]
  have ordered' : OrderTerm.cells? t'.definition s.select.orders = some order := by
    rw [definition]
    exact ordered
  rw [← definition] at faultless
  have selected : e'.contents.select s.select plan = some [stored] :=
    Contents.select_of_filter_eq found' faultless (congrArg Table.columnNames definition.symm)
      ordered' picks.taken known picked (picks.within _) width plan
  have back := Record.read_iff_keeps plain lengths stores []
  rw [← back, instances, selected]
  change Except.mapError SessionError.row
    ([stored].mapM fun row => Instance.read absent row 0 ss) = _ ↔ _
  rw [List.mapM_cons, List.mapM_nil, Instance.read_eq laidOut]
  change _ ↔ Record.read stored 0 (Slot.record ss) = _
  cases Record.read stored (0 + 0) (Slot.record ss) with
  | error cause => exact iff_of_false error_ne_ok error_ne_ok
  | ok r =>
      constructor
      · intro same
        have same : [Instance.ofEntry absent ss r] = [inst.reset absent ss] := Except.ok.inj same
        rw [← Instance.ofEntry_entry] at same
        have entries := congrArg (Instance.entry ss) (List.cons.inj same).1
        rw [Instance.entry_ofEntry, Instance.entry_ofEntry] at entries
        exact congrArg Except.ok entries
      · intro same
        rw [Except.ok.inj same]
        exact congrArg (fun inst => Except.ok [inst]) (Instance.ofEntry_entry ss inst)

/-- A record of a text in a column of a written storage class. -/
def note (k : StorageType) : String :=
  "struct Note \x7b #[column(storage_type = \"" ++ k.name ++ "\")] text: String, cache: Cache \x7d"

def noteTable (k : StorageType) : Table :=
  ⟨"Note", "Note", [{ Column.plain "text" k with typeText := "String" }], []⟩

def noteSlots : List Slot :=
  [⟨"text", some (0, ⟨"text", ⟨.text, false⟩⟩)⟩, ⟨"cache", none⟩]

def noteModel (k : StorageType) : Model :=
  ⟨noteTable k, Slot.record noteSlots, rfl⟩

/-- An instance with the digits of a number, and with a number in the field without a column. -/
def digits (cache : Nat) : Instance (fun _ => Nat) noteSlots :=
  ("12", cache, ())

/-- A database with the table of the notes and the rows in it. -/
def noting (k : StorageType) (rows : List StoredRow) : Engine :=
  { Engine.new true with contents := ⟨[⟨noteTable k, rows, [], 0⟩]⟩ }

private theorem exists_derive_note {k : StorageType}
    (known : (derive (note k)).toOption.map (fun d => (d.fields.map (·.name), d.slots?, d.table)) =
      some (["text", "cache"], some noteSlots, noteTable k)) :
    ∃ d, derive (note k) = .ok d ∧ (d.fields.map (·.name)).Nodup ∧ d.slots? = some noteSlots ∧
      d.table = noteTable k := by
  obtain ⟨d, derived, parts⟩ := Option.map_eq_some_iff.mp known
  obtain ⟨names, slots, table⟩ : _ ∧ _ ∧ _ := by simpa only [Prod.mk.injEq] using parts
  refine ⟨d, eq_ok_of_toOption derived, ?_, slots, table⟩
  rw [names]
  decide

/-- A column of bytes keeps the digits. -/
theorem select_of_insert_note :
    ∃ d, derive (note .blob) = .ok d ∧ (d.fields.map (·.name)).Nodup ∧ d.Fits noteSlots ∧
      d.table = noteTable .blob ∧
      Records.insert (m := noteModel .blob) ⟨.unset, false⟩ ((digits 7).entry noteSlots)
        (noting .blob []) = (.ok (some 1), noting .blob [⟨1, [.text "12"]⟩]) ∧
      ∀ plan : Plan, instances (fun _ => 0) noteSlots (.all (m := noteModel .blob))
        (noting .blob [⟨1, [.text "12"]⟩]) plan = .ok [digits 0] := by
  obtain ⟨⟨item, fields, table⟩, derived, distinct, slots, isTable⟩ :=
    exists_derive_note (k := .blob) (by decide +kernel)
  obtain ⟨fits, -⟩ := fits_of_slots? slots
  obtain rfl : table = noteTable .blob := isTable
  have inserted : Records.insert (m := noteModel .blob) ⟨.unset, false⟩ ((digits 7).entry noteSlots)
      (noting .blob []) = (.ok (some 1), noting .blob [⟨1, [.text "12"]⟩]) :=
    Answer.eq_ok (by decide +kernel) (by decide +kernel)
  have found : (noting .blob []).contents.table? "Note" = some (.new (noteTable .blob)) := by
    decide +kernel
  have found' : (noting .blob [⟨1, [.text "12"]⟩]).contents.table? "Note" =
      some ⟨noteTable .blob, [⟨1, [.text "12"]⟩], [], 0⟩ := by
    decide +kernel
  have plain : Record.IsPlain (Slot.record noteSlots) ((digits 7).entry noteSlots) :=
    ⟨trivial, trivial⟩
  obtain ⟨t', found'', -, reads⟩ := select_of_insert derived distinct fits found rfl plain inserted
  obtain rfl := Option.some.inj (found'.symm.trans found'')
  have picks : Selection.Picks (.all (m := fits.model derived distinct))
      ⟨noteTable .blob, [⟨1, [.text "12"]⟩], [], 0⟩ 1 := by
    refine ⟨fun r member => ?_, fun row => rfl, rfl⟩
    obtain rfl := List.mem_singleton.mp member
    rfl
  have keeps : Record.Keeps (noteTable .blob).columns (Slot.record noteSlots)
      ((digits 7).entry noteSlots) :=
    ⟨⟨nofun, fun _ => Or.inr (Or.inl rfl)⟩, trivial⟩
  exact ⟨_, derived, distinct, fits, rfl, inserted, fun plan =>
    (reads (fun _ => 0) .all picks plan).mpr keeps⟩

/-- A column of whole numbers makes a number of the digits, which is no text any more. -/
theorem select_of_insert_digits :
    ∃ d, derive (note .integer) = .ok d ∧ d.slots? = some noteSlots ∧
      d.table = noteTable .integer ∧
      Records.insert (m := noteModel .integer) ⟨.unset, false⟩ ((digits 7).entry noteSlots)
        (noting .integer []) = (.ok (some 1), noting .integer [⟨1, [.integer 12]⟩]) ∧
      ∀ plan : Plan, instances (fun _ => 0) noteSlots (.all (m := noteModel .integer))
        (noting .integer [⟨1, [.integer 12]⟩]) plan ≠ .ok [digits 0] := by
  obtain ⟨d, derived, -, slots, isTable⟩ := exists_derive_note (k := .integer) (by decide +kernel)
  refine ⟨d, derived, slots, isTable, Answer.eq_ok (by decide +kernel) (by decide +kernel), ?_⟩
  intro plan same
  have refused : (([[.integer 12]] : List Row).mapM fun row =>
      Instance.read (fun _ => 0) row 0 noteSlots).toOption.isNone = true := by
    decide +kernel
  have noTerms : OrderTerm.cells? (noteTable .integer) [] = some [] := rfl
  have only : (noting .integer [⟨1, [.integer 12]⟩]).contents.select
      (Selection.all (m := noteModel .integer)).select plan = some [[.integer 12]] :=
    Contents.select_of_filter_eq (t := ⟨noteTable .integer, [⟨1, [.integer 12]⟩], [], 0⟩)
      (r := ⟨1, [.integer 12]⟩) (by decide +kernel) (by decide +kernel) rfl noTerms
      (by decide +kernel) rfl rfl rfl rfl plan
  rw [instances, only] at same
  rw [ok_of_mapError same] at refused
  cases refused

end Derivation

end Source

end Tabula
