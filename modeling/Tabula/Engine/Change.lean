import Tabula.Engine.Limit
import Tabula.Engine.Reference
import Tabula.Engine.Truth
import Tabula.Query.Statement

/-! # Changes of rows

What insertions, updates and deletions make of the contents of a database. A statement goes row by
row; a row that breaks a constraint is left out, or ends the statement with nothing of it done, with
the rows so far kept, or with the whole transaction undone (`Effect`). Where references are
enforced, a statement that leaves rows without their parent is undone as well. Too much of a
condition or of an assignment is refused (`UpdateStatement.isTaken`, `DeleteStatement.isTaken`).
-/

namespace Tabula

/-- How a statement that changes rows ends. -/
inductive Effect where
  /-- The statement is done. -/
  | done (contents : Contents) (changed : Nat) (last : Option Int64)
  /-- The statement is refused, and this is what stays. -/
  | refused (contents : Contents)
  /-- The statement is refused, and the transaction around it is undone. -/
  | reverted
deriving DecidableEq

/-- How far a statement has come. -/
structure Progress where
  contents : Contents
  /-- How many rows were changed. -/
  changed : Nat
  /-- The position of the last row that was inserted. -/
  last : Option Int64
  /-- The positions at which rows were written. -/
  written : List Int64
deriving DecidableEq

namespace Progress

/-- The beginning of a statement. -/
def start (c : Contents) : Progress := ⟨c, 0, none, []⟩

/-- Goes through the rows of a statement until one ends it. With the reason comes how far the
statement had come before that row. -/
def run {α : Type} (step : Progress → α → Except Refusal Progress) :
    List α → Progress → Except (Refusal × Progress) Progress
  | [], p => .ok p
  | x :: xs, p =>
    match step p x with
    | .ok next => run step xs next
    | .error refusal => .error (refusal, p)

end Progress

namespace Contents

/-- How a statement ends that went through its rows. The references that it writes are those that
are `given` in the rows that it wrote, and what stays of a failed one is `kept`. -/
def conclude (enforced : Bool) (before : Contents) (given : Orphan → Bool)
    (kept : Contents → Contents) : Except (Refusal × Progress) Progress → Effect
  | .ok p =>
    if strands enforced (isWritten p) before p.contents then .refused before
    else .done p.contents p.changed p.last
  | .error (.fail, p) =>
    if strands enforced (isWritten p) before p.contents then .refused before
    else .refused (kept p.contents)
  | .error (.rollback, _) => .reverted
  | .error (.abort, _) => .refused before
  | .error (.skip, _) => .refused before
where
  /-- Whether a reference is one that the statement has written. -/
  isWritten (p : Progress) (o : Orphan) : Bool :=
    given o && p.written.contains o.row.rowid

/-- The database with a row in a table, where the rows that it displaces go, and so does the row
that it is the new version of. What goes or changes along with them may not clash with it. -/
def write (c : Contents) (enforced : Bool) (t : StoredTable) (self : Option Int64) (rowid : Int64)
    (a : Accepted) : Except Refusal Contents :=
  match c.remove enforced (a.displaced.map fun r => ⟨t.name, r⟩) with
  | some c =>
    if (c.table? t.name).all (·.admits self ⟨rowid, a.values⟩) then
      .ok (c.modify t.name fun t => (t.erase self.toList).put ⟨rowid, a.values⟩)
    else .error .abort
  | none => .error .abort

/-! ## Insertions -/

/-- The value of a column in a row that has values for some columns; nothing if its default is not
known. The position of a row has no default. -/
def insertedValue? (columns : List String) (row : Row) (c : Column) : Option Value :=
  match (columns.zip row).find? fun cv => Text.sameName cv.1 c.name with
  | some (_, v) => some (c.storage.store v.bound)
  | none => if Table.isRowid c then some .null else c.defaultValue?

end Contents

namespace StoredTable

/-- Whether the table keeps account of the positions of rows that were there. -/
def keepsAccount (t : StoredTable) : Bool :=
  t.definition.columns.any fun c => Table.isRowid c && c.autoincrement

/-- The position of a row that comes without: after the last row, and where account is kept, after
all rows that ever were. There may be none left. -/
def nextRowid? (t : StoredTable) : Option Int64 :=
  let present :=
    match t.rows.getLast? with
    | some r => r.rowid.toInt + 1
    | none => 1
  let next := if t.keepsAccount then max present (t.sequence + 1) else present
  if next < twoTo 63 then some (.ofInt next) else none

/-- The position of a row with the values, which holds it if a column does; nothing if the value
there is no integer, or no position is left. -/
def rowidOf? (t : StoredTable) (values : Row) : Option Int64 :=
  match t.definition.rowidPlace?.map fun place => values.getD place .null with
  | none => t.nextRowid?
  | some .null => t.nextRowid?
  | some (.integer n) => some n
  | some _ => none

/-- The values with the position of their row where a column holds it. -/
def withRowid (t : StoredTable) (rowid : Int64) (values : Row) : Row :=
  match t.definition.rowidPlace? with
  | some place => values.set place (.integer rowid)
  | none => values

/-- The table with account of a position. -/
def counting (t : StoredTable) (rowid : Int64) : StoredTable :=
  if t.keepsAccount then { t with sequence := max t.sequence rowid.toInt } else t

end StoredTable

namespace Contents

/-- One row of an insertion. A row that is left out is kept account of as well. -/
def insertRow (enforced : Bool) (policy : ConflictPolicy) (table : String) (p : Progress)
    (given : Row) : Except Refusal Progress :=
  match p.contents.table? table with
  | none => .error .abort
  | some t =>
    match t.rowidOf? given with
    | none => .error .abort
    | some rowid =>
      let t := t.counting rowid
      let c := p.contents.modify t.name fun _ => t
      match t.accept policy none t.definition.columnNames ⟨rowid, t.withRowid rowid given⟩ with
      | .error .skip => .ok { p with contents := c }
      | .error refusal => .error refusal
      | .ok a =>
        (c.write enforced t none rowid a).map fun c =>
          ⟨c, p.changed + 1, some rowid, rowid :: p.written⟩

/-- What an insertion makes of the database. A failed one leaves no account of positions. -/
def insert (c : Contents) (enforced : Bool) (s : InsertStatement) : Effect :=
  match c.table? s.table with
  | none => .refused c
  | some t =>
    let rows := if s.columns.isEmpty then [[]] else s.rows
    if s.rows.isEmpty && !s.columns.isEmpty ||
        !s.columns.all fun name => (t.definition.index? name).isSome then .refused c
    else
      match rows.mapM fun row => t.definition.columns.mapM (insertedValue? s.columns row) with
      | none => .refused c
      | some rows =>
        conclude enforced c (·.row.table == t.name)
            (·.modify t.name fun now => { now with sequence := t.sequence }) <|
          Progress.run (insertRow enforced s.policy t.name) rows (.start c)

/-! ## Updates -/

/-- The values of a row after assignments, the last one to a column counting; nothing if a column is
not there. -/
def assign? (t : Table) (values : Row) : List (String × Value) → Option Row
  | [] => some values
  | (name, v) :: rest =>
    match t.cell? name with
    | some (.column place c) => assign? t (values.set place (c.storage.store v.bound)) rest
    | _ => none

/-- One row of an update, if it is still there. -/
def updateRow (enforced : Bool) (policy : ConflictPolicy) (table : String)
    (assignments : List (String × Value)) (p : Progress) (self : Int64) :
    Except Refusal Progress :=
  match p.contents.table? table with
  | none => .error .abort
  | some t =>
    match t.row? self with
    | none => .ok p
    | some r =>
      match assign? t.definition r.values assignments with
      | none => .error .abort
      | some values =>
        match t.movedTo? self values with
        | some rowid => place t rowid values
        | none => .error .abort
where
  /-- Puts the new version of the row at a position. -/
  place (t : StoredTable) (rowid : Int64) (values : Row) : Except Refusal Progress :=
    let looked :=
      (t.definition.columns.filter fun c =>
        assignments.any fun a => Text.sameName a.1 c.name).map (·.name)
    match t.accept policy (some self) looked ⟨rowid, values⟩ with
    | .error .skip => .ok p
    | .error refusal => .error refusal
    | .ok a =>
      (p.contents.write enforced t (some self) rowid a).map fun c =>
        { p with contents := c, changed := p.changed + 1, written := rowid :: p.written }

/-- Whether the assignments give a reference of the table. A reference of the table to itself is
given along with any other, and with the key. -/
def isAssigned (t : StoredTable) (assignments : List (String × Value)) (ref : Reference) : Bool :=
  assigns ref.column ||
    Text.sameName ref.target t.name &&
      (t.references.any (assigns ·.column) || t.definition.keyColumn?.any assigns)
where
  assigns (c : Column) : Bool :=
    assignments.any fun a => Text.sameName a.1 c.name

/-- What an update makes of the database. -/
def update (c : Contents) (enforced : Bool) (s : UpdateStatement) : Effect :=
  match c.table? s.table with
  | none => .refused c
  | some t =>
    if !s.isTaken || !t.knows s.conditions ||
        !s.assignments.all fun a => (t.definition.index? a.1).isSome then .refused c
    else
      conclude enforced c
          (fun o => o.row.table == t.name && isAssigned t s.assignments o.reference) id <|
        Progress.run (updateRow enforced s.policy t.name s.assignments)
          ((t.filter s.conditions).map (·.rowid)) (.start c)

/-! ## Deletions -/

/-- What a deletion makes of the database. -/
def delete (c : Contents) (enforced : Bool) (s : DeleteStatement) : Effect :=
  match c.table? s.table with
  | none => .refused c
  | some t =>
    if !s.isTaken || !t.knows s.conditions then .refused c
    else
      let gone := t.filter s.conditions
      match c.remove enforced (gone.map fun r => ⟨t.name, r.rowid⟩) with
      | none => .refused c
      | some after =>
        if strands enforced (fun _ => false) c after then .refused c
        else .done after gone.length none

end Contents

end Tabula
