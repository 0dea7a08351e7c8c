import Tabula.Engine.Contents
import Tabula.Query.Condition

/-! # Truth of conditions

A comparison with NULL is neither true nor false, and what is joined from conditions is true or
false only if it is so whatever the undecided ones are (`Truth.and`, `Truth.or`). A row meets
conditions when all of them are true of it (`StoredTable.meets`).
-/

namespace Tabula

/-- A truth value, nothing if undecided. -/
abbrev Truth := Option Bool

namespace Truth

/-- Whether both hold. -/
protected def and : Truth → Truth → Truth
  | some false, _ => some false
  | _, some false => some false
  | some true, some true => some true
  | _, _ => none

/-- Whether one of the two holds. -/
protected def or : Truth → Truth → Truth
  | some true, _ => some true
  | _, some true => some true
  | some false, some false => some false
  | _, _ => none

/-- Whether it does not hold. -/
protected def not : Truth → Truth
  | some b => some !b
  | none => none

end Truth

namespace Value

/-- Whether the order of two values is as wanted. -/
def orderedAs (wanted : Ordering → Bool) (c : Collation) (v w : Value) : Truth :=
  (v.compare? c w).map wanted

/-- Whether the value is in a list. Nothing is in the empty list, not even NULL. -/
def isIn (c : Collation) (v : Value) (ws : List Value) : Truth :=
  if ws.isEmpty then some false
  else if ws.any fun w => v.same c w then some true
  else if v.isNull || ws.any (·.isNull) then none
  else some false

end Value

namespace Comparison

/-- Whether a value compares so with operands. An operand that is not there is NULL. -/
def truth (op : Comparison) (c : Collation) (v : Value) (operands : List Value) : Truth :=
  let first := operands.getD 0 .null
  match op with
  | eq => v.orderedAs (· == .eq) c first
  | notEq => v.orderedAs (· != .eq) c first
  | isNull => some v.isNull
  | isNotNull => some !v.isNull
  | inList => v.isIn c operands
  | notInList => (v.isIn c operands).not
  | lt => v.orderedAs (· == .lt) c first
  | le => v.orderedAs (· != .gt) c first
  | gt => v.orderedAs (· == .gt) c first
  | ge => v.orderedAs (· != .lt) c first
  | between =>
    (v.orderedAs (· != .lt) c first).and
      (v.orderedAs (· != .gt) c (operands.getD 1 .null))

end Comparison

namespace Table.Cell

/-- The storage class of the values of the cell. -/
def storage : Cell → StorageType
  | rowid => .integer
  | column _ c => c.storage

/-- How the texts of the cell compare. -/
def collation : Cell → Collation
  | rowid => .binary
  | column _ c => c.collation

end Table.Cell

namespace Condition

/-- Whether the table has every column of the condition. -/
def isKnown (t : Table) : Condition → Bool
  | compare column _ _ => (t.cell? column).isSome
  | both left right => left.isKnown t && right.isKnown t
  | either left right => left.isKnown t && right.isKnown t

/-- Whether the condition holds of a row. -/
def truth (t : Table) (r : StoredRow) : Condition → Truth
  | compare column op operands =>
    match t.cell? column with
    | some cell =>
      op.truth cell.collation (r.cell cell) (operands.map fun v => cell.storage.operand v.bound)
    | none => none
  | both left right => (left.truth t r).and (right.truth t r)
  | either left right => (left.truth t r).or (right.truth t r)

end Condition

namespace StoredTable

/-- Whether the table has every column of the conditions. -/
def knows (t : StoredTable) (cs : List Condition) : Bool :=
  cs.all (·.isKnown t.definition)

/-- Whether all conditions hold of a row. -/
def meets (t : StoredTable) (cs : List Condition) (r : StoredRow) : Bool :=
  cs.all fun c => c.truth t.definition r == some true

/-- The rows that meet the conditions. -/
def filter (t : StoredTable) (cs : List Condition) : List StoredRow :=
  t.rows.filter (t.meets cs)

end StoredTable

end Tabula
