import Tabula.Value.FieldType

/-! # Rows and records

A row is a list of values, as an engine hands it out. A record type is a list of named field types,
and a record of it is read off a row by position, from an offset on, so that one row can hold the
values of several records side by side.
-/

namespace Tabula

/-- A row of values. -/
abbrev Row := List Value

/-- Why a record cannot be read off a row. -/
inductive RowError where
  /-- The row is shorter than the record needs. -/
  | outOfBounds (index length : Nat)
  /-- The value at the position is no value of the column's field type. -/
  | value (column : String) (index : Nat) (cause : ValueError)
deriving DecidableEq

/-- The message of an error, with the place of its value. -/
def RowError.message : RowError → String
  | outOfBounds index length =>
    "column index " ++ toString index ++ " out of bounds for a row of " ++ toString length ++
      " values"
  | value column index cause =>
    "column `" ++ column ++ "` (index " ++ toString index ++ "): " ++ cause.message

/-- The value at a position of a row. -/
def Row.value (row : Row) (index : Nat) : Except RowError Value :=
  match row[index]? with
  | some v => .ok v
  | none => .error (.outOfBounds index row.length)

/-- What a field of the type holds after reading the value at a position of a row. -/
def Row.read (row : Row) (t : FieldType) (index : Nat) (column : String) :
    Except RowError t.Carrier := do
  let v ← row.value index
  (t.read v).mapError (.value column index)

/-- A column of a record type. -/
structure RecordColumn where
  /-- The name that errors call the column by. -/
  name : String
  type : FieldType
deriving DecidableEq, Inhabited

/-- What the fields of a record hold, column by column. -/
def Record : List RecordColumn → Type
  | [] => Unit
  | c :: cs => c.type.Carrier × Record cs

namespace Record

/-- The record at an offset of a row. The first column that cannot be read decides the error. -/
def read (row : Row) : (offset : Nat) → (cs : List RecordColumn) → Except RowError (Record cs)
  | _, [] => .ok ()
  | offset, c :: cs => do
    let x ← row.read c.type offset c.name
    let rest ← read row (offset + 1) cs
    return (x, rest)

/-- The values of a record, column by column. -/
def write : (cs : List RecordColumn) → Record cs → Row
  | [], _ => []
  | c :: cs, (x, rest) => c.type.write x :: write cs rest

/-- A record is written as one value for each column. -/
theorem length_write : ∀ (cs : List RecordColumn) (r : Record cs), (write cs r).length = cs.length
  | [], _ => rfl
  | _ :: cs, (_, rest) => congrArg (· + 1) (length_write cs rest)

end Record

end Tabula
