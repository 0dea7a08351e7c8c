import Tabula.Model.Change
import Tabula.Model.Insertion
import Tabula.Model.Selection
import Tabula.Session.DigestRecord

/-! # Records of a database

Records of a model written to a database and read from it. A row that is read must be a record of
the model. Many records take several statements: those of `insertRows` stand each for itself, and
those of `insertAll` are done together or not at all.
-/

namespace Tabula

namespace Records

variable {m : Model}

/-- Inserts a record: the position of its row, nothing if the row was left out. -/
def insert (i : Insertion m) (entry : m.Entry) (e : Engine) : Answer (Option Int64) :=
  Answer.ofChange (fun n => if 0 < n.1 then n.2 else none) (e.insert (i.insert [entry]))

/-- Runs insertions until one is refused: the number of rows written. -/
def runInsertions : List InsertStatement → Engine → Answer Nat
  | [], e => (.ok 0, e)
  | s :: rest, e =>
    match e.insert s with
    | (none, e) => (.error .database, e)
    | (some (written, _), e) =>
      let (more, e) := runInsertions rest e
      (more.map (written + ·), e)

/-- The statements that insert records: as few as may be, or where no column is written, one for
each record. -/
def insertions (i : Insertion m) (entries : List m.Entry) : List InsertStatement :=
  if i.columns.isEmpty then entries.map fun entry => i.insert [entry] else i.batches entries

/-- Inserts records one statement after the other: the number of rows written. -/
def insertRows (i : Insertion m) (entries : List m.Entry) (e : Engine) : Answer Nat :=
  runInsertions (insertions i entries) e

/-- Inserts all records or, where a statement is refused, none: the number of rows written. -/
def insertAll (i : Insertion m) (entries : List m.Entry) (e : Engine) : Answer Nat :=
  match e.begin? with
  | none => (.error .database, e)
  | some begun =>
    match insertRows i entries begun with
    | (.error x, e) => (.error x, e.rollback)
    | (.ok written, e) =>
      match e.commit? with
      | some e => (.ok written, e)
      | none => (.error .database, e)

/-- The records of a selection. -/
def select (s : Selection m) (e : Engine) (plan : Plan := .byPosition) :
    Except SessionError (List m.Entry) :=
  match e.contents.select s.select plan with
  | none => .error .database
  | some rows => (rows.mapM fun row => m.read row 0).mapError .row

/-- The first record of a selection, if there is one. -/
def first (s : Selection m) (e : Engine) (plan : Plan := .byPosition) :
    Except SessionError (Option m.Entry) :=
  match e.contents.select s.select plan with
  | none => .error .database
  | some [] => .ok none
  | some (row :: _) => ((m.read row 0).map some).mapError .row

/-- The number of records of a selection, whatever its order and its window. -/
def count (s : Selection m) (e : Engine) : Except SessionError Nat :=
  match e.contents.count s.count with
  | none => .error .database
  | some n => .ok n

/-- Runs an update: the number of rows changed. -/
def update (s : UpdateStatement) (e : Engine) : Answer Nat :=
  Answer.ofChange (·.1) (e.update s)

/-- Runs a deletion: the number of rows removed. -/
def delete (s : DeleteStatement) (e : Engine) : Answer Nat :=
  Answer.ofChange (·.1) (e.delete s)

end Records

end Tabula
