import Tabula.Schema.Table
import Tabula.Text.Quoted

/-! # Schema statements

The statements that create and drop tables and indexes, and their texts in a dialect. A dialect
chooses the quote character of identifiers and the names of the storage classes; all else is the
same everywhere. The clauses of a column stand in a fixed order: type, key, NOT NULL, UNIQUE,
DEFAULT, COLLATE, REFERENCES.
-/

namespace Tabula

/-- A way to write schema statements. -/
structure Dialect where
  name : String
  /-- The quote character of identifiers. -/
  quoteChar : Char
  /-- The name of a storage class as the type of a column. -/
  typeName : StorageType → String

/-- The dialect of the engine. -/
def Dialect.sqlite : Dialect := ⟨"sqlite", '"', StorageType.name⟩

/-- A statement about the tables and indexes of a database. -/
inductive SchemaStatement where
  /-- Create the table unless there is one of its name. -/
  | createTable (table : Table)
  /-- Create the index of a column unless there is one of its name. -/
  | createIndex (table : String) (column : Column)
  /-- Drop the table of the name if there is one. -/
  | dropTable (table : String)
deriving DecidableEq

namespace Dialect

variable (d : Dialect)

/-- The name as an identifier. -/
def quote (name : String) : String :=
  Text.quoteWith d.quoteChar name

/-- What a column's constraint says about conflicts. -/
def conflictClause (c : Column) : String :=
  match c.effectivePolicy.keyword? with
  | some keyword => " ON CONFLICT " ++ keyword
  | none => ""

/-- The constraints on the values of a column. The conflict clause goes with the last of them. -/
def constraintClauses (c : Column) : String :=
  if c.primaryKey then
    " PRIMARY KEY" ++ conflictClause c ++ if c.autoincrement then " AUTOINCREMENT" else ""
  else
    let notNull :=
      if c.nullable then ""
      else " NOT NULL" ++ if c.unique then "" else conflictClause c
    notNull ++ if c.unique then " UNIQUE" ++ conflictClause c else ""

/-- The default value of a column. -/
def defaultClause (c : Column) : String :=
  match c.defaultExpr with
  | some expr => " DEFAULT " ++ expr
  | none => ""

/-- The collation of a column, unless it is by bytes. -/
def collationClause (c : Column) : String :=
  if c.collation = .binary then "" else " COLLATE " ++ c.collation.name

/-- The reference of a column to another table. -/
def referenceClause (a : Option Association) : String :=
  match a with
  | none => ""
  | some a =>
    " REFERENCES " ++ d.quote a.target ++
      match a.onDelete with
      | some action => " ON DELETE " ++ action.name
      | none => ""

/-- The definition of a column, with its association if it has one. -/
def definition (c : Column) (a : Option Association) : String :=
  d.quote c.name ++ " " ++ d.typeName c.storage ++ constraintClauses c ++ defaultClause c ++
    collationClause c ++ d.referenceClause a

/-- The text of the statement that creates a table. -/
def createTable (t : Table) : String :=
  let lines := t.columns.map fun c => "    " ++ d.definition c (t.associationOf? c.name)
  "CREATE TABLE IF NOT EXISTS " ++ d.quote t.name ++ " (\n" ++ ",\n".intercalate lines ++ "\n)"

/-- The text of the statement that creates the index of a column. -/
def createIndex (table : String) (c : Column) : String :=
  "CREATE " ++ (if c.unique then "UNIQUE " else "") ++ "INDEX IF NOT EXISTS " ++
    d.quote (c.indexName table) ++ " ON " ++ d.quote table ++ " (" ++ d.quote c.name ++ ")"

/-- The text of the statement that drops a table. -/
def dropTable (table : String) : String :=
  "DROP TABLE IF EXISTS " ++ d.quote table

/-- The text of a statement. -/
def render : SchemaStatement → String
  | .createTable t => d.createTable t
  | .createIndex table c => d.createIndex table c
  | .dropTable table => d.dropTable table

end Dialect

end Tabula
