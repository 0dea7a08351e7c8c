import Tabula.Query.Statement
import Tabula.Schema.Table

/-! # Surfaces of tables

What a table offers to the statements about its rows: the comparisons and orderings of its columns,
the columns of an insertion, the column by which a single row is addressed, and the columns that an
update may assign. `Surface.condition` and `Surface.order` build what the surface offers and refuse
all else.
-/

namespace Tabula

/-- What a surface refuses. -/
inductive SurfaceError where
  /-- The column does not offer the capability. -/
  | notOffered (table column : String) (capability : Capability)
  /-- The table has no such column. -/
  | unknownColumn (table column : String)
  /-- The comparison takes another number of operands. -/
  | operandCount (op : Comparison) (expected found : Nat)
  /-- A row is to be addressed by its key, and the table has none. -/
  | noKey (table : String)
deriving DecidableEq

/-- The message of an error. -/
def SurfaceError.message : SurfaceError → String
  | notOffered table column capability =>
    "helper `" ++ capability.name ++ "` is not enabled on " ++ table ++ "." ++ column
  | unknownColumn table column => table ++ " has no column " ++ column
  | operandCount op expected found =>
    "`" ++ op.name ++ "` takes " ++ toString expected ++ " operand(s), got " ++ toString found
  | noKey table => "cannot target a row of " ++ table ++ ": no primary key value"

/-- What a column offers to statements. -/
structure ColumnSurface where
  name : String
  /-- The place of the column in a row. -/
  index : Nat
  storage : StorageType
  /-- The comparisons that the column offers. -/
  conditions : Capabilities
  /-- The orderings that the column offers. -/
  orders : Capabilities
deriving DecidableEq

namespace ColumnSurface

def offers (c : ColumnSurface) : Capability → Bool
  | .compare op => c.conditions.has (.compare op)
  | .order d => c.orders.has (.order d)

/-- The comparisons that the column offers, in the order of the bits. -/
def comparisons (c : ColumnSurface) : List Comparison :=
  Comparison.all.filter fun op => c.offers (.compare op)

end ColumnSurface

/-- The name by which a single row is addressed. -/
inductive RowTarget where
  /-- The key column. -/
  | key (column : String)
  /-- The position of the row in its table. -/
  | rowid
deriving DecidableEq

/-- The name that stands in a condition. -/
def RowTarget.name : RowTarget → String
  | key column => column
  | rowid => Table.rowidName

/-- What a table offers to statements. -/
structure Surface where
  table : String
  /-- The columns, in the order of a row. -/
  columns : List ColumnSurface
  /-- The key column that an insertion leaves to the engine, if there is one. -/
  autoKey : Option String
  /-- The columns of an insertion that leaves the key to the engine. -/
  inserted : List String
  /-- How a single row is addressed. -/
  target : RowTarget
  /-- The columns that an update may assign. -/
  updatable : List String
deriving DecidableEq

namespace Surface

/-- The surface of a table. -/
def ofTable (t : Table) : Surface where
  table := t.name
  columns := t.columns.zipIdx.map fun (c, index) =>
    ⟨c.name, index, c.storage, c.capabilities.inter .conditions, c.capabilities.inter .orders⟩
  autoKey := (t.columns.find? (·.isAutoKey)).map (·.name)
  inserted := (t.columns.filter (!·.isAutoKey)).map (·.name)
  target := if t.hasKey then .key t.keyName else .rowid
  updatable := (t.columns.filter (!·.primaryKey)).map (·.name)

/-- What a violated constraint can be answered with in a statement. -/
def policies : List ConflictPolicy := ConflictPolicy.all

/-- The first column of a name, in any ASCII case. -/
def column (s : Surface) (name : String) : Except SurfaceError ColumnSurface :=
  match s.columns.find? fun c => Text.sameName c.name name with
  | some c => .ok c
  | none => .error (.unknownColumn s.table name)

/-- The column of a name, if it offers the capability. -/
def offering (s : Surface) (name : String) (capability : Capability) :
    Except SurfaceError ColumnSurface := do
  let c ← s.column name
  if c.offers capability then return c
  else throw (.notOffered s.table c.name capability)

/-- A comparison of a column with operands. -/
def condition (s : Surface) (name : String) (op : Comparison) (operands : List Value) :
    Except SurfaceError Condition := do
  let c ← s.offering name (.compare op)
  match op.arity? with
  | some n =>
    if operands.length = n then return .compare c.name op operands
    else throw (.operandCount op n operands.length)
  | none => return .compare c.name op operands

/-- An ordering by a column. -/
def order (s : Surface) (name : String) (d : Direction) : Except SurfaceError OrderTerm := do
  let c ← s.offering name (.order d)
  return ⟨c.name, d⟩

/-- The condition that addresses a single row. -/
def keyCondition (s : Surface) (key : Value) : Condition :=
  .compare s.target.name .eq [key]

end Surface

end Tabula
