import Tabula.Session.Migration
import Tabula.Session.Settings
import Tabula.Session.Records

/-! # Sessions

A session is opened on a database with a schema, to which the database is brought first. It has one
connection: while a transaction is open, everything goes through it, and no other can begin. A
closed session refuses everything, except to insert no records at all.
-/

namespace Tabula

/-- Where the database of settings is, if a session can be opened with them: a new one in memory. -/
def Settings.connect (s : Settings) : Except SessionError Engine :=
  s.checked.map fun s => .new s.foreignKeys

/-- An open or closed database. -/
structure Session where
  /-- The connection. -/
  engine : Engine
  /-- Whether a transaction is open, from its beginning to its end. -/
  inTransaction : Bool
  isClosed : Bool

namespace Session

/-- A session on a connection. -/
def ofEngine (e : Engine) : Session := ⟨e, false, false⟩

/-- Opens a session with settings and brings the database to the schema. -/
def openWith (settings : Settings) (schema : Schema) (stamp : String) :
    Except SessionError (MigrationReport × Session) :=
  match settings.connect with
  | .error x => .error x
  | .ok e =>
    let m : Migration := { schema, dryRun := settings.dryRun, foreignKeys := settings.foreignKeys }
    match m.migrate stamp e with
    | (.error x, _) => .error x
    | (.ok report, e) => .ok (report, ofEngine e)

/-- Does something on the connection, unless the session is closed. -/
def perform {α : Type} (s : Session) (f : Engine → Answer α) : Except SessionError α × Session :=
  if s.isClosed then (.error .database, s)
  else
    let (result, e) := f s.engine
    (result, { s with engine := e })

/-- Reads something on the connection, unless the session is closed. -/
def read {α : Type} (s : Session) (f : Engine → Except SessionError α) : Except SessionError α :=
  if s.isClosed then .error .database else f s.engine

/-- Brings the database to another schema. -/
def reopen (s : Session) (schema : Schema) (stamp : String) :
    Except SessionError MigrationReport × Session :=
  if s.inTransaction then (.error .database, s)
  else s.perform ({ schema : Migration }.migrate stamp)

/-- Inserts records, all or none of them unless a transaction is open: the number of rows
written. -/
def insertAll {m : Model} (s : Session) (i : Insertion m) (entries : List m.Entry) :
    Except SessionError Nat × Session :=
  if entries.isEmpty then (.ok 0, s)
  else if s.inTransaction then s.perform (Records.insertRows i entries)
  else s.perform (Records.insertAll i entries)

/-- Begins a transaction. -/
def begin (s : Session) : Except SessionError Unit × Session :=
  if s.isClosed || s.inTransaction then (.error .database, s)
  else
    match s.engine.begin? with
    | some e => (.ok (), { s with engine := e, inTransaction := true })
    | none => (.error .database, s)

/-- Ends the transaction by what the engine makes of it. The transaction is over even where the
engine refuses. -/
def finish (s : Session) (f : Engine → Option Engine) : Except SessionError Unit × Session :=
  match f s.engine with
  | some e => (.ok (), { s with engine := e, inTransaction := false })
  | none => (.error .database, { s with inTransaction := false })

/-- Ends the transaction with all that was done. -/
def commit (s : Session) : Except SessionError Unit × Session :=
  s.finish Engine.commit?

/-- Undoes the transaction. -/
def rollback (s : Session) : Except SessionError Unit × Session :=
  s.finish Engine.rollback?

/-- Leaves the transaction without an end to it, which undoes it. -/
def abandon (s : Session) : Session :=
  { s with engine := s.engine.rollback, inTransaction := false }

/-- Closes the session. -/
def close (s : Session) : Session :=
  { s with isClosed := true }

end Session

end Tabula
