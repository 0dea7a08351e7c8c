import Tabula.Schema.Build
import Tabula.Session.DigestRecord

/-! # Migrations

A migration brings a database to a schema. Where the stored digest is that of the schema, nothing is
to be done; otherwise every table but the engine's own and the record of the digest is dropped, and
the tables of the schema are created, in one transaction and with references not enforced. A refused
statement undoes all of it. The report says what was decided, also where nothing is run.
-/

namespace Tabula

/-- How a database is brought to a schema, which is built in the dialect of the engine. -/
structure Migration where
  schema : Schema
  /-- Whether it is only reported what would be done. -/
  dryRun : Bool := false
  /-- Whether references are enforced afterwards. -/
  foreignKeys : Bool := true

/-- What a migration decided. -/
structure MigrationReport where
  decision : MigrationDecision
  /-- The digest that was stored. -/
  storedDigest : Option String
  /-- The digest of the schema. -/
  digest : String
  /-- The tables to drop, in the order of their names. -/
  dropped : List String
  /-- The statements, those that drop tables first. -/
  statements : List SchemaStatement
  /-- Whether the statements are only reported. -/
  dryRun : Bool
deriving DecidableEq

namespace MigrationReport

/-- Whether the statements are run. -/
def applied (r : MigrationReport) : Bool :=
  r.decision == .rebuild && !r.dryRun

/-- The texts of the statements. -/
def texts (r : MigrationReport) : List String :=
  r.statements.map Dialect.sqlite.render

end MigrationReport

namespace Migration

/-- Whether a table is taken for one of the engine's own: by the first six letters of its name, in
any ASCII case, and something after them. -/
def isInternal (name : String) : Bool :=
  "sqlite".toList.isPrefixOf (Text.asciiLower name).toList && 6 < name.length

/-- The tables that a migration drops, in the order of their names. -/
def userTables (c : Contents) : List String :=
  c.tableNames.filter fun name => !isInternal name && name != DigestRecord.tableName

/-- What the migration decides for a database. -/
def plan (m : Migration) (e : Engine) : Except SessionError MigrationReport :=
  (DigestRecord.load e).map fun stored =>
    match MigrationDecision.ofDigests stored m.schema.digest with
    | .keep => ⟨.keep, stored, m.schema.digest, [], [], m.dryRun⟩
    | .rebuild =>
      let dropped := userTables e.contents
      ⟨.rebuild, stored, m.schema.digest, dropped,
        dropped.map .dropTable ++ m.schema.schemaStatements, m.dryRun⟩

/-- Runs schema statements until one is refused. -/
def runAll : List SchemaStatement → Engine → Except SessionError Engine
  | [], e => .ok e
  | s :: rest, e =>
    match e.define s with
    | some e => runAll rest e
    | none => .error (.statement (Dialect.sqlite.render s))

/-- Runs the statements and stores the digest, or does neither. -/
def apply (m : Migration) (stamp : String) (statements : List SchemaStatement) (e : Engine) :
    Answer Unit :=
  match e.begin? with
  | none => (.error .database, e)
  | some begun =>
    match runAll statements begun with
    | .error x => (.error x, begun.rollback)
    | .ok defined =>
      match DigestRecord.save stamp m.schema.digest defined with
      | (.error x, e) => (.error x, e.rollback)
      | (.ok _, e) =>
        match e.commit? with
        | some e => (.ok (), e)
        | none => (.error .database, e)

/-- Brings the database to the schema. References are not enforced in the meantime, and enforced
afterwards as the migration says, also where it fails. -/
def migrate (m : Migration) (stamp : String) (e : Engine) : Answer MigrationReport :=
  match m.plan e with
  | .error x => (.error x, e)
  | .ok report =>
    if report.applied then
      let (result, after) := m.apply stamp report.statements (e.enforce false)
      (result.map fun _ => report, after.enforce m.foreignKeys)
    else (.ok report, e)

end Migration

end Tabula
