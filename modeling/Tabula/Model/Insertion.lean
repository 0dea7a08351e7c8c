import Tabula.Model.Basic

/-! # Insertions

How records of a model become new rows. The key that the engine assigns is left out unless it is
asked for. Many records go into several statements, since a statement has at most
`Insertion.maxParams` values as long as that is room for a row; `Insertion.batches` loses and
repeats none of them.
-/

namespace Tabula

/-- The list in pieces of the size, except that the last may be smaller. A size of nothing leaves
the list in one piece. -/
def pieces {α : Type} (size : Nat) (xs : List α) : List (List α) :=
  if xs.isEmpty then []
  else if size = 0 then [xs]
  else xs.take size :: pieces size (xs.drop size)
termination_by xs.length
decreasing_by
  rename_i hx hs
  have hpos : 0 < xs.length := List.length_pos_iff.mpr (by simpa using hx)
  rw [List.length_drop]
  omega

/-- The pieces of a list are the list. -/
theorem flatten_pieces {α : Type} (size : Nat) (xs : List α) : (pieces size xs).flatten = xs := by
  induction xs using pieces.induct size with
  | case1 xs h =>
    rw [pieces, if_pos h]
    exact (List.isEmpty_iff.mp h).symm
  | case2 xs h hs =>
    rw [pieces, if_neg h, if_pos hs]
    simp
  | case3 xs h hs ih =>
    rw [pieces, if_neg h, if_neg hs, List.flatten_cons, ih, List.take_append_drop]

/-- A way to insert records. -/
structure Insertion (m : Model) where
  /-- What to do with a row that violates a constraint. -/
  policy : ConflictPolicy := .unset
  /-- Whether the key that the engine assigns is left out. -/
  omitsAutoKey : Bool := true

namespace Insertion

/-- The most values of a statement. -/
def maxParams : Nat := 999

variable {m : Model} (i : Insertion m)

/-- Whether the column is written. -/
def writes (c : Column) : Bool :=
  !(i.omitsAutoKey && c.isAutoKey)

/-- The columns that are written. -/
def columns : List Column :=
  m.table.columns.filter i.writes

/-- The values of a record in the columns that are written. -/
def row (entry : m.Entry) : Row :=
  ((m.table.columns.zip (m.write entry)).filter fun cv => i.writes cv.1).map (·.2)

/-- The statement that inserts records. -/
def insert (entries : List m.Entry) : InsertStatement where
  policy := i.policy
  table := m.table.name
  columns := i.columns.map (·.name)
  rows := entries.map i.row

/-- The text of the statement that inserts one record. -/
def text : String :=
  InsertStatement.textFor i.policy m.table.name (i.columns.map (·.name)) 1

/-- The one statement that inserts all records, nothing if there is none: without a record, or
without a column, where a statement inserts just one row. -/
def insertAll? (entries : List m.Entry) : Option InsertStatement :=
  if entries.isEmpty || i.columns.isEmpty then none else some (i.insert entries)

/-- The most records of a statement. -/
def rowsPerStatement : Nat :=
  max 1 (maxParams / max 1 i.columns.length)

/-- The statements that insert all records, in their order. There is none without a column. -/
def batches (entries : List m.Entry) : List InsertStatement :=
  if i.columns.isEmpty then [] else (pieces i.rowsPerStatement entries).map i.insert

end Insertion

end Tabula
