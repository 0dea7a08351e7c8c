import Tabula.Proofs.Engine.StoredRow
import Tabula.Query.Surface

/-! # What a surface offers

The columns of a table without faults have different names even up to case, so its surface finds
each of them by any spelling of its name in ASCII case (`Tabula.Surface.column_ofTable`), and builds
a comparison or an ordering of the column exactly if the column has the capability and the operands
are as many as the comparison takes (`Tabula.Surface.condition_ofTable`,
`Tabula.Surface.order_ofTable`).
-/

namespace Tabula

/-! ## Capabilities -/

/-- Every capability is in the list of all. -/
theorem Capability.mem_all (capability : Capability) : capability ∈ all := by
  rcases capability with op | direction
  · cases op <;> decide
  · cases direction <;> decide

namespace Capabilities

private theorem has_inter (s : Capabilities) {t : Capabilities} {capability : Capability}
    (inside : t.bits &&& capability.bit = capability.bit) :
    (s.inter t).has capability = s.has capability := by
  rw [has, has, inter, UInt16.and_assoc, inside]

private theorem has_inter_conditions (s : Capabilities) (op : Comparison) :
    (s.inter conditions).has (.compare op) = s.has (.compare op) :=
  s.has_inter (by cases op <;> decide)

private theorem has_inter_orders (s : Capabilities) (direction : Direction) :
    (s.inter orders).has (.order direction) = s.has (.order direction) :=
  s.has_inter (by cases direction <;> decide)

/-- The capabilities of a column are those that it has. -/
theorem mem_toList {s : Capabilities} {capability : Capability} :
    capability ∈ s.toList ↔ s.has capability = true := by
  rw [toList, List.mem_filter, and_iff_right capability.mem_all]

end Capabilities

/-! ## Columns of a surface -/

/-- What a surface says of a column at a place. -/
def ColumnSurface.ofColumn (c : Column) (index : Nat) : ColumnSurface :=
  ⟨c.name, index, c.storage, c.capabilities.inter .conditions, c.capabilities.inter .orders⟩

private theorem ColumnSurface.offers_ofColumn (c : Column) (index : Nat) (capability : Capability) :
    (ofColumn c index).offers capability = c.capabilities.has capability := by
  cases capability with
  | compare op => exact c.capabilities.has_inter_conditions op
  | order direction => exact c.capabilities.has_inter_orders direction

namespace Surface

variable {t : Table} {c : Column} {place : Nat} {name : String}

/-- A surface has a column for each of the table, in its place. -/
theorem columns_ofTable (t : Table) :
    (ofTable t).columns = t.columns.zipIdx.map fun p => .ofColumn p.1 p.2 :=
  rfl

private theorem getElem?_columns_ofTable (isColumn : t.columns[place]? = some c) :
    (ofTable t).columns[place]? = some (.ofColumn c place) := by
  rw [columns_ofTable, List.getElem?_map, List.getElem?_zipIdx, isColumn, Option.map_some,
    Option.map_some, Nat.zero_add]

private theorem map_columns_ofTable {α : Type} (t : Table) (f : String → α) :
    ((ofTable t).columns.map fun c => f c.name) = t.columns.map fun c => f c.name := by
  have columns : t.columns.zipIdx.map Prod.fst = t.columns := List.zipIdx_map_fst 0 t.columns
  conv => rhs; rw [← columns]
  rw [columns_ofTable, List.map_map, List.map_map]
  rfl

/-- A surface finds each column of a table without faults, in whatever ASCII case it is named. -/
theorem column_ofTable (faultless : t.faults = []) (isColumn : t.columns[place]? = some c)
    (same : Text.sameName name c.name = true) :
    (ofTable t).column name = .ok (.ofColumn c place) := by
  have distinct : ((ofTable t).columns.map fun c => Text.lower c.name).Nodup := by
    rw [map_columns_ofTable t Text.lower]
    exact Table.nodup_lowerNames faultless
  have found : (ofTable t).columns.find? (fun other => Text.sameName other.name c.name) =
      some (.ofColumn c place) :=
    (find?_sameName ColumnSurface.name distinct (getElem?_columns_ofTable isColumn)).1
  have spelled : (fun other : ColumnSurface => Text.sameName other.name name) =
      fun other => Text.sameName other.name c.name := by
    funext other
    rw [Text.sameName_comm, Text.sameName_congr same, Text.sameName_comm]
  rw [column, spelled, found]

/-- The column is found for a capability exactly if it has it. -/
theorem offering_ofTable (faultless : t.faults = []) (isColumn : t.columns[place]? = some c)
    (same : Text.sameName name c.name = true) (capability : Capability) :
    (ofTable t).offering name capability =
      if c.capabilities.has capability then .ok (.ofColumn c place)
      else .error (.notOffered t.name c.name capability) := by
  rw [offering, column_ofTable faultless isColumn same]
  simp only [bind, Except.bind, ColumnSurface.offers_ofColumn]
  rfl

/-- A comparison is built exactly if the column has it and it takes so many operands. -/
theorem condition_ofTable (faultless : t.faults = []) (isColumn : t.columns[place]? = some c)
    (same : Text.sameName name c.name = true) {op : Comparison} {values : List Value}
    {built : Condition} :
    (ofTable t).condition name op values = .ok built ↔
      c.capabilities.has (.compare op) = true ∧ op.Takes values.length ∧
        built = .compare c.name op values := by
  rw [condition, offering_ofTable faultless isColumn same]
  split
  · rename_i has
    have counted : op.Takes values.length ↔ ∀ n, op.arity? = some n → values.length = n := by
      simp only [Comparison.Takes, Option.mem_def]
    simp only [bind, Except.bind, pure, Except.pure, has, true_and, counted]
    cases arity : op.arity? with
    | none => simp [ColumnSurface.ofColumn, eq_comm]
    | some n =>
        by_cases equal : values.length = n
        · simp [equal, ColumnSurface.ofColumn, eq_comm]
        · simp [equal, throw, throwThe, MonadExceptOf.throw]
  · rename_i missing
    simp [bind, Except.bind, missing]

/-- An ordering is built exactly if the column has it. -/
theorem order_ofTable (faultless : t.faults = []) (isColumn : t.columns[place]? = some c)
    (same : Text.sameName name c.name = true) {direction : Direction} {term : OrderTerm} :
    (ofTable t).order name direction = .ok term ↔
      c.capabilities.has (.order direction) = true ∧ term = ⟨c.name, direction⟩ := by
  rw [order, offering_ofTable faultless isColumn same]
  split
  · rename_i has
    simp [bind, Except.bind, pure, Except.pure, has, ColumnSurface.ofColumn, eq_comm]
  · rename_i missing
    simp [bind, Except.bind, missing]

end Surface

end Tabula
