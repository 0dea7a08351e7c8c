import Tabula.Engine.Constraint

/-! # References between tables

A column that references a table holds a key of it or NULL. A reference to a row that is not there
is an orphan (`Contents.orphans`). A statement may not write one, nor take the parent of one away
(`Contents.strands`); those that are there already do not matter to it. When rows go, those that
reference them go along, let go of them, or keep them from going, as their columns say
(`Contents.remove`).
-/

namespace Tabula

/-- A column that references a table. -/
structure Reference where
  place : Nat
  column : Column
  target : String
  /-- What becomes of a row whose parent goes. -/
  action : DeleteAction
deriving DecidableEq

/-- Where a row is. -/
structure RowPlace where
  /-- The name of the table, as it is spelled. -/
  table : String
  /-- The position of the row. -/
  rowid : Int64
deriving DecidableEq

/-- A row whose parent goes. -/
structure Dependent where
  /-- Where the row is. -/
  row : RowPlace
  /-- The column that references the parent. -/
  reference : Reference
deriving DecidableEq

/-- A reference to a row that is not there. -/
structure Orphan where
  /-- Where the row is that references it. -/
  row : RowPlace
  reference : Reference
  /-- The key that no row has. -/
  key : Value
deriving DecidableEq

namespace StoredTable

/-- The columns that reference tables. -/
def references (t : StoredTable) : List Reference :=
  t.definition.columns.zipIdx.filterMap fun (c, place) =>
    (t.definition.associationOf? c.name).map fun a =>
      ⟨place, c, a.target, a.onDelete.getD .noAction⟩

/-- Whether the value is the key of a row. -/
def isKey (t : StoredTable) (v : Value) (r : StoredRow) : Bool :=
  match t.definition.keyIndex?, t.definition.keyColumn? with
  | some place, some k => (r.values.getD place .null).same k.collation (k.storage.store v)
  | _, _ => false

end StoredTable

namespace Contents

/-- Whether a row of the table has the value for its key. -/
def hasKey (c : Contents) (table : String) (v : Value) : Bool :=
  match c.table? table with
  | some t => t.rows.any (t.isKey v)
  | none => false

/-- The references to rows that are not there. -/
def orphans (c : Contents) : List Orphan :=
  c.tables.flatMap fun t =>
    t.references.flatMap fun ref =>
      t.rows.filterMap fun r =>
        let v := r.values.getD ref.place .null
        if v.isNull || c.hasKey ref.target v then none else some ⟨⟨t.name, r.rowid⟩, ref, v⟩

/-- Whether a statement leaves an orphan that it has written, or that was none before. -/
def strands (enforced : Bool) (written : Orphan → Bool) (before after : Contents) : Bool :=
  enforced && after.orphans.any fun o => written o || !before.orphans.contains o

/-- The database without the rows at the places. -/
def erase (c : Contents) (gone : List RowPlace) : Contents :=
  ⟨c.tables.map fun t => t.erase ((gone.filter (·.table == t.name)).map (·.rowid))⟩

/-- The rows that reference one of the rows at the places. -/
def dependents (c : Contents) (gone : List RowPlace) : List Dependent :=
  c.tables.flatMap fun t => t.references.flatMap fun ref =>
    match c.table? ref.target with
    | none => []
    | some p =>
      let parents := p.rows.filter fun q => gone.contains ⟨p.name, q.rowid⟩
      (t.rows.filter fun r =>
        parents.any (p.isKey (r.values.getD ref.place .null))).map fun r => ⟨⟨t.name, r.rowid⟩, ref⟩

/-- The places with those of all rows that go along, in so many rounds at most. -/
def cascade (c : Contents) : Nat → List RowPlace → List RowPlace
  | 0, gone => gone
  | rounds + 1, gone =>
    let along := ((c.dependents gone).filter fun d => d.reference.action = .cascade).map (·.row)
    match along.filter fun p => !gone.contains p with
    | [] => gone
    | more => c.cascade rounds (gone ++ more)

/-- The database with another value where a row references a parent that is gone; nothing if the
row may not hold it. -/
def reassign (c : Contents) (d : Dependent) (v : Value) : Option Contents := do
  let t ← c.table? d.row.table
  let r ← t.row? d.row.rowid
  let values := r.values.set d.reference.place v
  let rowid ← t.movedTo? r.rowid values
  match t.accept .abort (some r.rowid) [d.reference.column.name] ⟨rowid, values⟩ with
  | .ok a => some (c.modify t.name fun t => (t.erase [r.rowid]).put ⟨rowid, a.values⟩)
  | .error _ => none

/-- The database after a row has let go of its parent, if it does; nothing if it may not. -/
def release (c : Contents) (d : Dependent) : Option Contents :=
  match d.reference.action with
  | .setNull => c.reassign d .null
  | .setDefault => d.reference.column.defaultValue?.bind (c.reassign d)
  | .restrict => none
  | .noAction | .cascade => some c

/-- The database without the rows at the places; nothing if rows that reference them keep them from
going. -/
def remove (c : Contents) (enforced : Bool) (gone : List RowPlace) : Option Contents :=
  if !enforced || gone.isEmpty then some (c.erase gone)
  else
    let all := c.cascade c.rowCount gone
    ((c.dependents all).filter fun d => !all.contains d.row).foldlM release (c.erase all)

end Contents

end Tabula
