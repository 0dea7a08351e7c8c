import Tabula.Query.Surface
import Tabula.Value.Row

/-! # Models

A model is a table together with the field type of each of its columns, so that the rows of the
table are read as records and written from them. A table has a model when each of its columns comes
from a field whose type is known (`Model.ofTable?`).
-/

namespace Tabula

/-- A table of records. -/
structure Model where
  table : Table
  /-- The columns with their field types. -/
  record : List RecordColumn
  /-- The columns are those of the table. -/
  names : record.map (·.name) = table.columnNames

/-- A column of a model with its field type. -/
structure ModelColumn where
  column : Column
  /-- The type of the field behind it. -/
  type : FieldType

namespace ModelColumn

def offers (c : ModelColumn) (capability : Capability) : Bool :=
  c.column.capabilities.has capability

end ModelColumn

/-- The column with the type of the field behind it, if that is known. -/
def Column.typed? (c : Column) : Option RecordColumn :=
  (FieldType.ofText? c.typeText).map (⟨c.name, ·⟩)

/-- A typed column keeps its name. -/
theorem Column.name_of_typed? {c : Column} {r : RecordColumn} (h : c.typed? = some r) :
    r.name = c.name := by
  obtain ⟨type, -, rfl⟩ := Option.map_eq_some_iff.mp h
  rfl

/-- The record type of columns, if the types of the fields behind them are known. -/
def recordOf? (cs : List Column) : Option (List RecordColumn) :=
  cs.mapM (·.typed?)

private theorem names_of_recordOf? {cs : List Column} {rs : List RecordColumn}
    (h : recordOf? cs = some rs) : rs.map (·.name) = cs.map (·.name) := by
  unfold recordOf? at h
  induction cs generalizing rs with
  | nil =>
    obtain rfl : [] = rs := by simpa using h
    rfl
  | cons c cs ih =>
    rw [List.mapM_cons] at h
    obtain ⟨r, hr, h⟩ := Option.bind_eq_some_iff.mp h
    obtain ⟨rest, hrest, h⟩ := Option.bind_eq_some_iff.mp h
    obtain rfl := Option.some.inj h
    rw [List.map_cons, List.map_cons, ih hrest, Column.name_of_typed? hr]

namespace Model

def ofTable? (t : Table) : Option Model :=
  match h : recordOf? t.columns with
  | some record => some ⟨t, record, names_of_recordOf? h⟩
  | none => none

variable (m : Model)

/-- A record of the model. -/
abbrev Entry : Type := Record m.record

/-- The columns of the model, in the order of a row. -/
def columns : List ModelColumn :=
  List.zipWith ModelColumn.mk m.table.columns (m.record.map (·.type))

/-- The first column of exactly this name. -/
def column? (name : String) : Option ModelColumn :=
  m.columns.find? (·.column.name == name)

/-- The record at an offset of a row. -/
def read (row : Row) (offset : Nat) : Except RowError m.Entry :=
  Record.read row offset m.record

/-- The values of a record, in the order of the columns. -/
def write (entry : m.Entry) : Row :=
  Record.write m.record entry

/-- The record of a model has a column for each of its table. -/
theorem length_record : m.record.length = m.table.columns.length := by
  have names := congrArg List.length m.names
  rwa [List.length_map, Table.columnNames, List.length_map] at names

/-- A record is written as one value for each column. -/
theorem length_write (entry : m.Entry) : (m.write entry).length = m.table.columns.length :=
  (Record.length_write m.record entry).trans m.length_record

/-- The value of the key, nothing if the table has none. -/
def keyValue? (entry : m.Entry) : Option Value :=
  m.table.keyIndex?.bind fun i => (m.write entry)[i]?

/-- The condition that addresses the row of a key. -/
def keyCondition (key : Value) : Condition :=
  .compare m.table.keyName .eq [key]

end Model

end Tabula
