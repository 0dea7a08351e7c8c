import Tabula.Engine.Truth
import Tabula.Query.Statement

/-! # Plans

The order in which a selection comes upon rows. The terms of the selection decide, the first
difference of two rows counting (`compareRows`). Rows that they leave together, and all rows where
there are no terms, come as the engine has planned for the statement, and another statement or other
contents may have another plan. No plan leaves a row out or reads it twice (`Plan`).
-/

namespace Tabula

/-- The order of two rows by the values of cells, the first difference deciding. -/
def compareRows : List (Table.Cell × Direction) → StoredRow → StoredRow → Ordering
  | [], _, _ => .eq
  | (cell, direction) :: rest, r, q =>
    let here := (r.cell cell).compare cell.collation (q.cell cell)
    (match direction with
      | .asc => here
      | .desc => here.swap).then (compareRows rest r q)

/-- What the terms of an order stand for in the rows of a table, nothing if a column is not
there. -/
def OrderTerm.cells? (t : Table) (orders : List OrderTerm) : Option (List (Table.Cell × Direction)) :=
  orders.mapM fun o => (t.cell? o.column).map (·, o.direction)

/-- The order puts every two of the rows in one sequence. -/
structure Arranges (order : List (Table.Cell × Direction)) (rows : List StoredRow) : Prop where
  total : ∀ r ∈ rows, ∀ q ∈ rows,
    (compareRows order r q).isLE = true ∨ (compareRows order q r).isLE = true
  trans : ∀ r ∈ rows, ∀ q ∈ rows, ∀ p ∈ rows, (compareRows order r q).isLE = true →
    (compareRows order q p).isLE = true → (compareRows order r p).isLE = true

/-- A way to go through the rows that a statement reads. -/
structure Plan where
  /-- The rows as the statement comes upon them. -/
  arrange (c : Contents) (asked : Statement) (order : List (Table.Cell × Direction))
    (rows : List StoredRow) : List StoredRow
  /-- Every row is read once. -/
  perm : ∀ c asked order rows, (arrange c asked order rows).Perm rows
  /-- The order is kept. -/
  sorted : ∀ c asked {order rows}, Arranges order rows →
    (arrange c asked order rows).Pairwise fun r q => (compareRows order r q).isLE = true

namespace Plan

/-- There is one way to go through one row. -/
theorem arrange_singleton (plan : Plan) (c : Contents) (asked : Statement)
    (order : List (Table.Cell × Direction)) (r : StoredRow) :
    plan.arrange c asked order [r] = [r] :=
  List.perm_singleton.mp (plan.perm c asked order [r])

/-- Rows that an order arranges are sorted by it. -/
theorem pairwise_mergeSort {order : List (Table.Cell × Direction)} {rows : List StoredRow}
    (arranges : Arranges order rows) :
    (rows.mergeSort fun r q => (compareRows order r q).isLE).Pairwise fun r q =>
      (compareRows order r q).isLE = true := by
  rw [← List.attach_map_subtype_val (l := rows),
    ← List.map_mergeSort (r := fun r q => (compareRows order r.1 q.1).isLE) fun r _ q _ => rfl,
    List.pairwise_map]
  apply List.pairwise_mergeSort
  · exact fun r q p => arranges.trans r r.2 q q.2 p p.2
  · exact fun r q => Bool.or_eq_true_iff.mpr (arranges.total r r.2 q q.2)

/-- The plan by which rows that the order leaves together stay as they were. -/
def byPosition : Plan where
  arrange _ _ order rows := rows.mergeSort fun r q => (compareRows order r q).isLE
  perm _ _ _ rows := List.mergeSort_perm rows _
  sorted _ _ _ _ := pairwise_mergeSort

end Plan

end Tabula
