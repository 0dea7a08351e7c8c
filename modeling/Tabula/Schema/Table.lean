import Tabula.Schema.Attribute
import Tabula.Schema.Capability

/-! # Tables and their columns

A table is a list of columns and a list of associations, each of which says that a column references
the key of another table. Nothing here is checked: a table can have two columns of one name, or none
at all (see `Tabula.Schema.Validation`).
-/

namespace Tabula

/-- A column of a table. -/
structure Column where
  name : String
  /-- The record field behind the column. -/
  field : String
  typeText : String
  storage : StorageType
  /-- Whether the column may hold NULL. -/
  nullable : Bool
  /-- Whether the column is the key of the table. -/
  primaryKey : Bool
  /-- Whether the engine assigns the key of a row that comes without. -/
  auto : Bool
  /-- Whether keys of deleted rows are never assigned again. -/
  autoincrement : Bool
  /-- Whether the column has an index. -/
  indexed : Bool
  /-- Whether no two rows have the same value. -/
  unique : Bool
  /-- What to do with a row that violates the column's constraint. -/
  onConflict : ConflictPolicy
  /-- How the texts of the column compare. -/
  collation : Collation
  /-- The expression of the value of a row that comes without. -/
  defaultExpr : Option String
  /-- What the column offers to statements. -/
  capabilities : Capabilities
deriving DecidableEq, Inhabited

namespace Column

/-- A column without any constraint. -/
def plain (name : String) (storage : StorageType) : Column where
  name := name
  field := name
  typeText := ""
  storage := storage
  nullable := false
  primaryKey := false
  auto := false
  autoincrement := false
  indexed := false
  unique := false
  onConflict := .unset
  collation := .binary
  defaultExpr := none
  capabilities := .automatic storage false

/-- The column made the key of its table, which is never NULL. -/
def asKey (c : Column) (auto : Bool) : Column :=
  { c with primaryKey := true, auto := auto, nullable := false }

/-- The policy that the column's constraint states. -/
def effectivePolicy (c : Column) : ConflictPolicy :=
  c.onConflict.effective c.unique

/-- Whether the column needs an index of its own; a key has one already. -/
def needsIndex (c : Column) : Bool :=
  !c.primaryKey && (c.indexed || c.unique)

/-- The name of the column's index. -/
def indexName (c : Column) (table : String) : String :=
  "index_" ++ c.name ++ "_on_" ++ table

/-- Whether the engine assigns the values of the column. -/
def isAutoKey (c : Column) : Bool :=
  c.primaryKey && c.auto

end Column

/-- A column's reference to the key of another table. -/
structure Association where
  /-- The referencing column. -/
  column : String
  /-- The referenced table. -/
  target : String
  /-- What becomes of the referencing rows. -/
  onDelete : Option DeleteAction
deriving DecidableEq, Inhabited

/-- A table. -/
structure Table where
  name : String
  /-- The name of the record model behind the table. -/
  model : String
  /-- The columns, in the order of a row. -/
  columns : List Column
  /-- The references to other tables. -/
  associations : List Association
deriving DecidableEq, Inhabited

namespace Table

/-- The name by which the engine knows the position of a row in a table. -/
def rowidName : String := "_rowid_"

/-- The place of the key among the columns, nothing if the row position is the only key. -/
def keyIndex? (t : Table) : Option Nat :=
  t.columns.findIdx? (·.primaryKey)

/-- The column that is the key, if there is one. -/
def keyColumn? (t : Table) : Option Column :=
  t.columns.find? (·.primaryKey)

/-- The name by which single rows are addressed. -/
def keyName (t : Table) : String :=
  match t.keyColumn? with
  | some c => c.name
  | none => rowidName

/-- The first column of a name, in any ASCII case. -/
def find? (t : Table) (name : String) : Option Column :=
  t.columns.find? fun c => Text.sameName c.name name

/-- The place of the first column of a name, in any ASCII case. -/
def index? (t : Table) (name : String) : Option Nat :=
  t.columns.findIdx? fun c => Text.sameName c.name name

/-- The names of the columns, in their order. -/
def columnNames (t : Table) : List String :=
  t.columns.map (·.name)

/-- The first association of the column of exactly this name. -/
def associationOf? (t : Table) (column : String) : Option Association :=
  t.associations.find? (·.column == column)

/-- Whether some column is the key. -/
def hasKey (t : Table) : Bool :=
  t.columns.any (·.primaryKey)

end Table

end Tabula
