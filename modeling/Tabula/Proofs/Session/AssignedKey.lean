import Tabula.Proofs.Model.Binding
import Tabula.Proofs.Schema.Extraction
import Tabula.Proofs.Session.Storing

/-! # Keys that the engine assigns

An insertion leaves out the key that the engine is to assign. The engine does so where the key is the
position of its row, which only a key of whole numbers is. A key of another storage class may be meant
to be assigned all the same, and then takes its default, NULL without one. So the row is read back
exactly if its key reads what it took (`Tabula.Model.returned_of_insert`), and a key of texts does not
(`Tabula.Model.returned_of_insert_volume`).
-/

namespace Tabula

/-! ## Which keys are to be assigned -/

/-- A column is an assigned key because its field is annotated so. Its storage class is that of the
field, and it is of whole numbers if no key is to be assigned twice. -/
theorem FieldDeclaration.assigned_of_extract {f : FieldDeclaration} {c : Column}
    (extracted : f.extract = .ok c) (isAuto : c.isAutoKey = true) :
    f.storage? = some c.storage ∧
      ∃ key, f.key = some key ∧ key.auto = true ∧
        (key.autoincrement = true → c.storage = .integer) := by
  obtain ⟨faultless, storage, policy, collation, isStorage, -, -, rfl⟩ := parts_of_extract extracted
  refine ⟨isStorage, ?_⟩
  obtain ⟨isKey, isAssigned⟩ : f.key.isSome = true ∧ f.key.any (·.auto) = true :=
    Bool.and_eq_true_iff.mp isAuto
  obtain ⟨key, written⟩ := Option.isSome_iff_exists.mp isKey
  refine ⟨key, written, ?_, fun never => ?_⟩
  · rwa [written] at isAssigned
  · simp only [faults, List.append_eq_nil_iff] at faultless
    have unopposed : f.conflicts = [] := List.map_eq_nil_iff.mp faultless.1.2
    simp only [conflicts, written, isStorage, List.append_eq_nil_iff, never, Bool.true_and] at unopposed
    by_contra other
    change storage ≠ .integer at other
    simp [other] at unopposed

private theorem Declaration.assigned_of_extract {d : Declaration} {t : Table} {c : Column}
    (extracted : d.extract = .ok t) (member : c ∈ t.columns) (isAuto : c.isAutoKey = true) :
    ∃ f ∈ d.mapped, f.extract = .ok c ∧ f.storage? = some c.storage ∧
      ∃ key, f.key = some key ∧ key.auto = true ∧
        (key.autoincrement = true → c.storage = .integer) := by
  obtain ⟨f, mapped, isColumn⟩ := exists_field_of_extract extracted member
  exact ⟨f, mapped, isColumn, FieldDeclaration.assigned_of_extract isColumn isAuto⟩

/-- What an assigned key takes is its position if it is of whole numbers, else its default. -/
theorem Column.omitted?_of_isAutoKey {c : Column} (isAuto : c.isAutoKey = true) (rowid : Int64) :
    c.omitted? rowid = if c.storage = .integer then some (.integer rowid) else c.defaultValue? := by
  have isKey : c.primaryKey = true := (Bool.and_eq_true_iff.mp isAuto).1
  simp only [omitted?, Table.isRowid, isKey, Bool.true_and, beq_iff_eq]

/-! ## Reading what was left out -/

/-- A value is read that a written column left of what its field held, and is the same, if the column
keeps it; a value that the column took is read if the field can hold it. -/
theorem Column.exists_read_iff {writes : Column → Bool} {rowid : Int64} {c : Column} {t : FieldType}
    {x : t.Carrier} {w : Value} (plain : t.IsPlain x)
    (leaves : Leaves writes rowid (c, t.write x) w) :
    (∃ y, t.read w = .ok y ∧ (writes c = true → y = x)) ↔
      if writes c then c.Keeps t x else ∃ v y, c.omitted? rowid = some v ∧ t.read v = .ok y := by
  cases isWritten : writes c with
  | true =>
      rw [Leaves, if_pos isWritten, FieldType.bound_write plain] at leaves
      rw [if_pos rfl, ← read_iff_keeps plain leaves]
      constructor
      · rintro ⟨y, back, same⟩
        exact same rfl ▸ back
      · intro back
        exact ⟨x, back, fun _ => rfl⟩
  | false =>
      rw [Leaves, if_neg (Bool.eq_false_iff.mp isWritten)] at leaves
      rw [if_neg Bool.false_ne_true]
      constructor
      · rintro ⟨y, back, -⟩
        exact ⟨w, y, leaves, back⟩
      · rintro ⟨v, y, taken, back⟩
        obtain rfl := Option.some.inj (leaves.symm.trans taken)
        exact ⟨y, back, fun isWritten => absurd isWritten Bool.false_ne_true⟩

/-- Whether the column can hold whatever its field can. -/
def ModelColumn.IsOwn (c : ModelColumn) : Prop :=
  c.type.scalar.storage? = some c.column.storage ∧
    (c.type.optional = true → c.column.AcceptsNull)

namespace Record

/-- Whether a record holds in the columns that are written what another one does. -/
def AgreesIn (writes : Column → Bool) :
    List Column → (rs : List RecordColumn) → Record rs → Record rs → Prop
  | c :: cs, _ :: rs, (x, rest), (y, others) =>
    (writes c = true → y = x) ∧ AgreesIn writes cs rs rest others
  | _, _, _, _ => True

/-- Whether each column that is written gives back what its field holds, and each other field can
hold what its column takes. -/
def Returns (writes : Column → Bool) (rowid : Int64) :
    List Column → (rs : List RecordColumn) → Record rs → Prop
  | c :: cs, r :: rs, (x, rest) =>
    (if writes c then c.Keeps r.type x
      else ∃ v y, c.omitted? rowid = some v ∧ r.type.read v = .ok y) ∧
      Returns writes rowid cs rs rest
  | _, _, _ => True

variable {writes : Column → Bool} {rowid : Int64} {cs : List Column} {rs : List RecordColumn}
  {r : Record rs}

/-- The stored values of a record are read back, and as they were in the columns that were written,
just if each column returns its own. -/
theorem exists_read_iff_returns {ws : Row} (plain : IsPlain rs r) (lengths : cs.length = rs.length)
    (stored : List.Forall₂ (Column.Leaves writes rowid) (cs.zip (write rs r)) ws) (before : Row) :
    (∃ back, read (before ++ ws) before.length rs = .ok back ∧ AgreesIn writes cs rs r back) ↔
      Returns writes rowid cs rs r := by
  induction rs generalizing cs ws before with
  | nil =>
      obtain rfl := List.length_eq_zero_iff.mp lengths
      exact iff_of_true ⟨(), rfl, trivial⟩ trivial
  | cons first rs ih =>
      obtain ⟨x, rest⟩ := r
      obtain ⟨c, cs, rfl⟩ := List.exists_cons_of_length_eq_add_one lengths
      obtain ⟨w, ws, leaves, others, rfl⟩ := List.forall₂_cons_left_iff.mp stored
      have ofColumn := Column.exists_read_iff plain.1 leaves
      have ofOthers := ih plain.2 (Nat.succ.inj lengths) others (before ++ [w])
      change _ ↔ (if writes c then c.Keeps first.type x
        else ∃ v y, c.omitted? rowid = some v ∧ first.type.read v = .ok y) ∧
          Returns writes rowid cs rs rest
      rw [← ofColumn, ← ofOthers]
      constructor
      · rintro ⟨⟨y, back⟩, isRead, agrees, agreeOthers⟩
        obtain ⟨here, there⟩ := read_cons_eq_ok.mp isRead
        exact ⟨⟨y, here, agrees⟩, back, there, agreeOthers⟩
      · rintro ⟨⟨y, here, agrees⟩, back, there, agreeOthers⟩
        exact ⟨(y, back), read_cons_eq_ok.mpr ⟨here, there⟩, agrees, agreeOthers⟩

/-- Columns that can hold what their fields can return it, and so does one that takes its position if
its field is a whole number of full width. -/
theorem returns_of_own
    (own : ∀ c ∈ List.zipWith ModelColumn.mk cs (rs.map (·.type)), writes c.column = true → c.IsOwn)
    (position : ∀ c ∈ List.zipWith ModelColumn.mk cs (rs.map (·.type)), writes c.column = false →
      Table.isRowid c.column = true ∧ c.type = ⟨.int .i64, false⟩) :
    Returns writes rowid cs rs r := by
  induction rs generalizing cs with
  | nil => cases cs <;> exact trivial
  | cons first rs ih =>
      cases cs with
      | nil => exact trivial
      | cons c cs =>
          obtain ⟨x, rest⟩ := r
          refine ⟨?_, ih (fun d member => own d (List.mem_cons_of_mem _ member))
            fun d member => position d (List.mem_cons_of_mem _ member)⟩
          split
          · rename_i isWritten
            obtain ⟨ofType, nullable⟩ := own ⟨c, first.type⟩ List.mem_cons_self isWritten
            exact Column.keeps_of_own ofType nullable x
          · rename_i omits
            obtain ⟨holds, isNumber⟩ :=
              position ⟨c, first.type⟩ List.mem_cons_self (Bool.eq_false_of_not_eq_true omits)
            have isNumber : first.type = ⟨.int .i64, false⟩ := isNumber
            have inRange : IntWidth.i64.Holds rowid := ⟨rowid.le_toInt, rowid.toInt_le⟩
            refine ⟨.integer rowid, ?_⟩
            rw [isNumber]
            exact ⟨_, if_pos holds, dif_pos inRange⟩

end Record

/-! ## Insertions without the key -/

namespace Insertion

variable {m : Model} {i : Insertion m}

private theorem writes_eq_not_isAutoKey (omits : i.omitsAutoKey = true) (c : Column) :
    i.writes c = !c.isAutoKey := by
  rw [writes, omits, Bool.true_and]

private theorem columns_insert (i : Insertion m) (entry : m.Entry) :
    (i.insert [entry]).columns = (m.table.written i.writes (m.write entry)).map (·.1.name) := by
  have columns : (m.table.written i.writes (m.write entry)).map (·.1) = i.columns :=
    m.map_fst_filter_write entry i.writes
  rw [insert, ← columns, List.map_map]
  rfl

private theorem rows_insert (i : Insertion m) (entry : m.Entry) :
    (if (i.insert [entry]).columns.isEmpty then [[]] else (i.insert [entry]).rows) =
      [(m.table.written i.writes (m.write entry)).map (·.2)] := by
  rw [columns_insert]
  cases written : m.table.written i.writes (m.write entry) with
  | nil => rfl
  | cons p ps =>
      change [(m.table.written i.writes (m.write entry)).map (·.2)] = _
      rw [written]

end Insertion

namespace Model

variable {m : Model} {i : Insertion m} {entry : m.Entry} {rowid : Int64} {stored : Row}

/-- After the insertion of a record there is one row at its position, with what the columns leave of
the record. -/
theorem leaves_of_insert {e e' : Engine} {t : StoredTable} (faultless : m.table.faults = [])
    (found : e.contents.table? m.table.name = some t) (isTable : t.definition = m.table)
    (inserted : Records.insert i entry e = (.ok (some rowid), e')) :
    ∃ t' stored, e'.contents.table? m.table.name = some t' ∧ t'.definition = m.table ∧
      t'.rows.filter (·.rowid == rowid) = [⟨rowid, stored⟩] ∧
      List.Forall₂ (Column.Leaves i.writes rowid) (m.table.columns.zip (m.write entry)) stored := by
  obtain ⟨changed, counted, done⟩ := Records.insert_eq_ok inserted
  have keys (c : Column) (left : i.writes c = false) : c.primaryKey = true := by
    rw [Insertion.writes, Bool.not_eq_false'] at left
    exact (Bool.and_eq_true_iff.mp (Bool.and_eq_true_iff.mp left).2).1
  obtain ⟨rowid', stored, t', answer, leaves, found', definition, rows⟩ :=
    Contents.leaves_of_insert (s := i.insert [entry]) (t := t) i.writes (m.write entry) found
      (isTable ▸ faultless) (isTable ▸ i.columns_insert entry) (isTable ▸ i.rows_insert entry)
      (isTable ▸ m.length_write entry) (fun c _ => keys c) done counted
  obtain rfl := Option.some.inj answer
  rw [isTable] at leaves definition
  exact ⟨t', stored, found', definition, rows, leaves⟩

private theorem exists_leaves {place : Nat} {c : Column}
    (leaves : List.Forall₂ (Column.Leaves i.writes rowid) (m.table.columns.zip (m.write entry)) stored)
    (isColumn : m.table.columns[place]? = some c) (left : i.writes c = false) :
    ∃ w, stored[place]? = some w ∧ c.omitted? rowid = some w := by
  obtain ⟨inside, rfl⟩ := List.getElem?_eq_some_iff.mp isColumn
  have lengths := leaves.length_eq
  rw [List.length_zip, m.length_write, Nat.min_self] at lengths
  have insideZip : place < (m.table.columns.zip (m.write entry)).length := by
    rwa [List.length_zip, m.length_write, Nat.min_self]
  have here := leaves.get insideZip (lengths ▸ inside)
  rw [List.get_eq_getElem, List.getElem_zip, Column.Leaves, if_neg (Bool.eq_false_iff.mp left)] at here
  exact ⟨_, List.getElem?_eq_getElem (lengths ▸ inside), here⟩

/-- **The row of an insertion without the key is read back if the key reads what it took.** A column is
an assigned key where its field is annotated so, whatever its storage class is, except that keys which
are never assigned again are of whole numbers. An insertion leaves out the assigned key and nothing
else. The row that it leaves has its position in the key if the key is of whole numbers, and otherwise
the default of the key, NULL without one. It is read back, with what the record has in the other
columns, exactly if they keep it and the key's field reads what is in the key. So it is where the key is
of whole numbers and each other column can hold whatever its field can. -/
theorem returned_of_insert (m : Model) {d : Declaration} (extracted : d.extract = .ok m.table)
    (faultless : m.table.faults = []) :
    (∀ c ∈ m.table.columns, c.isAutoKey = true →
      ∃ f ∈ d.mapped, f.extract = .ok c ∧ f.storage? = some c.storage ∧
        ∃ key, f.key = some key ∧ key.auto = true ∧
          (key.autoincrement = true → c.storage = .integer)) ∧
    ∀ i : Insertion m, i.omitsAutoKey = true →
      i.columns = m.table.columns.filter (fun c => !c.isAutoKey) ∧
      ∀ e t entry rowid e', e.contents.table? m.table.name = some t → t.definition = m.table →
        Record.IsPlain m.record entry → Records.insert i entry e = (.ok (some rowid), e') →
        ∃ t' stored, e'.contents.table? m.table.name = some t' ∧ t'.definition = m.table ∧
          t'.rows.filter (·.rowid == rowid) = [⟨rowid, stored⟩] ∧
          (∀ (place : Nat) (c : Column), m.table.columns[place]? = some c → c.isAutoKey = true →
            stored[place]? =
              if c.storage = .integer then some (.integer rowid) else c.defaultValue?) ∧
          ((∃ back, m.read stored 0 = .ok back ∧
              Record.AgreesIn i.writes m.table.columns m.record entry back) ↔
            Record.Returns i.writes rowid m.table.columns m.record entry) ∧
          ((∀ c ∈ m.columns, if c.column.isAutoKey
              then c.column.storage = .integer ∧ c.type = ⟨.int .i64, false⟩ else c.IsOwn) →
            ∃ back, m.read stored 0 = .ok back ∧
              Record.AgreesIn i.writes m.table.columns m.record entry back) := by
  refine ⟨fun c member isAuto => Declaration.assigned_of_extract extracted member isAuto,
    fun i omits => ⟨?_, ?_⟩⟩
  · exact List.filter_congr fun c _ => Insertion.writes_eq_not_isAutoKey omits c
  intro e t entry rowid e' found isTable plain inserted
  have isAuto {c : Column} (left : i.writes c = false) : c.isAutoKey = true := by
    rwa [Insertion.writes_eq_not_isAutoKey omits, Bool.not_eq_false'] at left
  obtain ⟨t', stored, found', definition, rows, leaves⟩ :=
    leaves_of_insert faultless found isTable inserted
  have returned := Record.exists_read_iff_returns plain m.length_record.symm leaves []
  refine ⟨t', stored, found', definition, rows, ?_, returned, fun own => ?_⟩
  · intro place c isColumn isAuto
    have isLeft : i.writes c = false := by
      rw [Insertion.writes_eq_not_isAutoKey omits, isAuto, Bool.not_true]
    obtain ⟨w, isThere, leaves⟩ := exists_leaves leaves isColumn isLeft
    rw [isThere, ← leaves, Column.omitted?_of_isAutoKey isAuto]
  · refine returned.mpr (Record.returns_of_own (fun c member isWritten => ?_) fun c member left => ?_)
    · have ofColumn := own c member
      rw [Insertion.writes_eq_not_isAutoKey omits, Bool.not_eq_true'] at isWritten
      rwa [isWritten, if_neg Bool.false_ne_true] at ofColumn
    · have ofColumn := own c member
      rw [isAuto left, if_pos rfl] at ofColumn
      refine ⟨?_, ofColumn.2⟩
      rw [Table.isRowid, (Bool.and_eq_true_iff.mp (isAuto left)).1, ofColumn.1]
      rfl

/-- Records of a key of a type, which is to be assigned if nothing else is written, and of a title. -/
def volume (typeText : String) : Declaration :=
  ⟨"Volume", none, [⟨"code", typeText, none, some .empty⟩, ⟨"title", "String", some .empty, none⟩]⟩

/-- The model of the records, given what the type of the key is. -/
def volumeModel (typeText : String) (k : StorageType) (s : Scalar) : Model where
  table :=
    { name := "Volume", model := "Volume"
      columns :=
        [{ (Column.plain "code" k).asKey true with typeText },
          { Column.plain "title" .text with typeText := "String" }]
      associations := [] }
  record := [⟨"code", s, false⟩, ⟨"title", .text, false⟩]
  names := rfl

/-- A database with rows of the model. -/
def shelf (m : Model) (rows : List StoredRow) : Engine :=
  { Engine.new true with contents := ⟨[{ StoredTable.new m.table with rows }]⟩ }

/-- A key of whole numbers is the position of its row. -/
theorem returned_of_insert_number :
    let m := volumeModel "i64" .integer (.int .i64)
    let entry : m.Entry := (⟨0, by decide⟩, "Salt", ())
    (volume "i64").extract = .ok m.table ∧ m.table.faults = [] ∧
      Records.insert ({} : Insertion m) entry (shelf m []) =
        (.ok (some 1), shelf m [⟨1, [.integer 1, .text "Salt"]⟩]) ∧
      ∃ back, m.read [.integer 1, .text "Salt"] 0 = .ok back ∧
        Record.AgreesIn ({} : Insertion m).writes m.table.columns m.record entry back := by
  intro m entry
  have extracted : (volume "i64").extract = .ok m.table := eq_ok_of_toOption (by decide +kernel)
  have faultless : m.table.faults = [] := by decide +kernel
  have inserted : Records.insert ({} : Insertion m) entry (shelf m []) =
      (.ok (some 1), shelf m [⟨1, [.integer 1, .text "Salt"]⟩]) :=
    Answer.eq_ok (by decide +kernel) (by decide +kernel)
  have found : (shelf m []).contents.table? m.table.name = some (.new m.table) := by decide +kernel
  have found' : (shelf m [⟨1, [.integer 1, .text "Salt"]⟩]).contents.table? m.table.name =
      some { StoredTable.new m.table with rows := [⟨1, [.integer 1, .text "Salt"]⟩] } := by
    decide +kernel
  obtain ⟨t', stored, isThere, -, rows, -, -, returns⟩ :=
    ((returned_of_insert m extracted faultless).2 {} rfl).2 _ _ _ _ _ found rfl
      ⟨trivial, trivial, trivial⟩ inserted
  obtain rfl := Option.some.inj (found'.symm.trans isThere)
  obtain rfl : [.integer 1, .text "Salt"] = stored :=
    congrArg StoredRow.values (List.cons.inj rows).1
  refine ⟨extracted, faultless, inserted, returns fun c member => ?_⟩
  rcases List.mem_cons.mp member with rfl | member
  · exact ⟨rfl, rfl⟩
  · obtain rfl := List.mem_singleton.mp member
    exact ⟨rfl, nofun⟩

/-- A key of texts is to be assigned as well, and the table is without a fault. The insertion leaves NULL
in it, which is no text. -/
theorem returned_of_insert_volume :
    let m := volumeModel "String" .text .text
    let entry : m.Entry := ("A1", "Salt", ())
    (volume "String").extract = .ok m.table ∧ m.table.faults = [] ∧
      (∃ c ∈ m.table.columns, c.isAutoKey = true ∧ c.storage = .text) ∧
      Records.insert ({} : Insertion m) entry (shelf m []) =
        (.ok (some 1), shelf m [⟨1, [.null, .text "Salt"]⟩]) ∧
      m.read [.null, .text "Salt"] 0 = .error (.value "code" 0 (.unexpectedNull .text)) := by
  intro m entry
  refine ⟨eq_ok_of_toOption (by decide +kernel), by decide +kernel, ⟨_, List.mem_cons_self, rfl, rfl⟩,
    Answer.eq_ok (by decide +kernel) (by decide +kernel), rfl⟩

end Model

end Tabula
