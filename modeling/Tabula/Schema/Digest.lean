import Tabula.Hash.Sha256
import Tabula.Schema.Dialect

/-! # Digests of schemas

The digest of a schema stands for its statements: the SHA-256 hash, in capital hexadecimal digits,
of all statements in the order of their tables' names, each followed by a semicolon and a line
break (`Ddl.preimage`). A stored digest decides whether a database is rebuilt.
-/

namespace Tabula

/-- The texts of the statements that create a table and its indexes. -/
structure TableDdl where
  table : String
  /-- The statement that creates the table. -/
  createTable : String
  /-- The statements that create its indexes. -/
  createIndexes : List String
deriving DecidableEq, Inhabited

/-- The statements, the table first. -/
def TableDdl.statements (d : TableDdl) : List String :=
  d.createTable :: d.createIndexes

namespace Ddl

/-- The tables in the order of their names; tables of one name keep their order. -/
def ordered (ds : List TableDdl) : List TableDdl :=
  ds.mergeSort fun a b => decide (a.table ≤ b.table)

/-- The text that the digest is taken of. -/
def preimage (ds : List TableDdl) : String :=
  String.join ((ordered ds).flatMap fun d => d.statements.map (· ++ ";\n"))

/-- The digest of the statements of tables. -/
def digest (ds : List TableDdl) : String :=
  String.ofList (Text.hexUpper (Sha256.hash (preimage ds).toUTF8.toList))

end Ddl

/-- What to do with a database when it is opened with a schema. -/
inductive MigrationDecision where
  /-- The database is at the schema. -/
  | keep
  /-- Every table is dropped and created anew. -/
  | rebuild
deriving DecidableEq, Inhabited

/-- A database is kept exactly when it stores the digest of the schema. -/
def MigrationDecision.ofDigests (stored : Option String) (current : String) : MigrationDecision :=
  if stored = some current then keep else rebuild

end Tabula
