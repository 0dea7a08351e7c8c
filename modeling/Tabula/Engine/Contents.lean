import Tabula.Engine.Affinity
import Tabula.Engine.Compare
import Tabula.Engine.Limit
import Tabula.Schema.Dialect
import Tabula.Value.Row

/-! # Contents of a database

A database is a list of tables, each with its rows in the order of their positions and with the
indexes that were created on it. Names are one name in any ASCII case; the spelling of the creation
is kept. Schema statements create and drop tables and indexes (`Contents.define`): they do nothing
where there is nothing to do, and are refused where they make no sense.
-/

namespace Tabula

/-- A row in its table. -/
structure StoredRow where
  /-- The position of the row. -/
  rowid : Int64
  values : Row
deriving DecidableEq

/-- An index on a column. -/
structure StoredIndex where
  name : String
  column : Column
deriving DecidableEq

/-- A table with its rows. -/
structure StoredTable where
  /-- What the table was created as. -/
  definition : Table
  /-- The rows, in the order of their positions. -/
  rows : List StoredRow
  /-- The indexes, in the order of their creation. -/
  indexes : List StoredIndex
  /-- The greatest position that a row was ever meant for, if the table keeps account of it. -/
  sequence : Int
deriving DecidableEq

namespace Table

/-- What a name stands for in the rows of a table. -/
inductive Cell where
  /-- The position of the row. -/
  | rowid
  /-- The value in a column. -/
  | column (place : Nat) (c : Column)
deriving DecidableEq

/-- The names of the position of a row, where no column has them. -/
def rowidNames : List String := [rowidName, "rowid", "oid"]

/-- What a name stands for. -/
def cell? (t : Table) (name : String) : Option Cell :=
  match t.index? name, t.find? name with
  | some place, some c => some (.column place c)
  | _, _ => if rowidNames.any (Text.sameName name) then some .rowid else none

/-- Whether the column is the position of the row under a name of its own. -/
def isRowid (c : Column) : Bool :=
  c.primaryKey && c.storage == .integer

/-- The place of the column that is the position of the row. -/
def rowidPlace? (t : Table) : Option Nat :=
  t.columns.findIdx? isRowid

/-- Whether brackets match outside of quotes. -/
def bracketsMatch (depth : Nat) (quote : Option Char) : List Char → Bool
  | [] => depth = 0 && quote.isNone
  | c :: rest =>
    match quote with
    | some q => bracketsMatch depth (if c = q then none else quote) rest
    | none =>
      if c = '\'' || c = '"' then bracketsMatch depth (some c) rest
      else if c = '(' then bracketsMatch (depth + 1) none rest
      else if c = ')' then 0 < depth && bracketsMatch (depth - 1) none rest
      else bracketsMatch depth none rest

/-- Whether a default is an expression, and not something that runs out of it. -/
def isExpression (expr : String) : Bool :=
  bracketsMatch 0 none expr.toList

/-- Whether the statement that creates the table can be read. -/
def isReadable (t : Table) : Bool :=
  !t.columns.isEmpty && t.columns.all fun c => c.defaultExpr.all isExpression

/-- Whether a table can be created so: no two columns have one name, one column at most is the key,
account of positions is kept only where they are the key, and there are not too many columns. -/
def isCreatable (t : Table) : Bool :=
  t.columns.all (fun c => t.columns.countP (fun d => Text.sameName d.name c.name) == 1) &&
    t.columns.countP (·.primaryKey) ≤ 1 &&
    (t.columns.all fun c => !(c.primaryKey && c.autoincrement) || isRowid c) &&
    t.columns.length ≤ Limit.terms

/-- Whether the name is one that the engine keeps for its own tables. -/
def isReserved (name : String) : Bool :=
  "sqlite_".toList.isPrefixOf (Text.asciiLower name).toList

end Table

namespace StoredRow

def cell (r : StoredRow) : Table.Cell → Value
  | .rowid => .integer r.rowid
  | .column place _ => r.values.getD place .null

end StoredRow

namespace StoredTable

/-- The table as it is created. -/
def new (t : Table) : StoredTable := ⟨t, [], [], 0⟩

def name (t : StoredTable) : String := t.definition.name

/-- Whether the table goes by the name. -/
def isNamed (t : StoredTable) (name : String) : Bool :=
  Text.sameName t.name name

/-- The row at a position. -/
def row? (t : StoredTable) (rowid : Int64) : Option StoredRow :=
  t.rows.find? (·.rowid == rowid)

/-- The table without the rows at the positions. -/
def erase (t : StoredTable) (rowids : List Int64) : StoredTable :=
  { t with rows := t.rows.filter fun r => !rowids.contains r.rowid }

/-- The rows with one more in its place, instead of the one at its position if there is one. -/
def place (row : StoredRow) : List StoredRow → List StoredRow
  | [] => [row]
  | r :: rest =>
    if r.rowid.toInt < row.rowid.toInt then r :: place row rest
    else if r.rowid = row.rowid then row :: rest
    else row :: r :: rest

/-- The table with one more row. -/
def put (t : StoredTable) (row : StoredRow) : StoredTable :=
  { t with rows := place row t.rows }

end StoredTable

/-- The tables of a database, in the order of their creation. -/
structure Contents where
  tables : List StoredTable
deriving DecidableEq

namespace Contents

/-- The database without a table. -/
def empty : Contents := ⟨[]⟩

/-- The table by a name, whatever its spelling. -/
def table? (c : Contents) (name : String) : Option StoredTable :=
  c.tables.find? (·.isNamed name)

/-- The database with what becomes of the table of a name. -/
def modify (c : Contents) (name : String) (f : StoredTable → StoredTable) : Contents :=
  ⟨c.tables.map fun t => if t.isNamed name then f t else t⟩

/-- Whether an index of the name is on some table. -/
def hasIndex (c : Contents) (name : String) : Bool :=
  c.tables.any fun t => t.indexes.any fun i => Text.sameName i.name name

/-- How many rows there are. -/
def rowCount (c : Contents) : Nat :=
  (c.tables.flatMap (·.rows)).length

/-- The names of the tables as they were spelled, in the order of their bytes. -/
def tableNames (c : Contents) : List String :=
  (c.tables.map (·.name)).mergeSort fun a b => decide (a ≤ b)

/-- Whether no two rows of a table have the same value in a column. -/
def isDistinct (place : Nat) (c : Column) : List StoredRow → Bool
  | [] => true
  | r :: rest =>
    !rest.any (fun q => (q.values.getD place .null).same c.collation (r.values.getD place .null)) &&
      isDistinct place c rest

/-- The database with a table, unless there is one of its name; nothing if that is refused. -/
def createTable (c : Contents) (t : Table) : Option Contents :=
  if Table.isReserved t.name || !t.isReadable then none
  else if (c.table? t.name).isSome then some c
  else if c.hasIndex t.name || !t.isCreatable then none
  else some ⟨c.tables ++ [.new t]⟩

/-- The database with an index on a column, unless there is one of its name; nothing if that is
refused. -/
def createIndex (c : Contents) (table : String) (column : Column) : Option Contents :=
  let name := column.indexName table
  match c.table? table with
  | none => none
  | some t =>
    if (c.table? name).isSome then none
    else if c.hasIndex name then some c
    else
      match t.definition.cell? column.name with
      | some (.column place own) =>
        if column.unique && !isDistinct place own t.rows then none
        else some (c.modify table fun t => { t with indexes := t.indexes ++ [⟨name, column⟩] })
      | _ => none

/-- The database without the table of a name and its indexes. -/
def dropTable (c : Contents) (name : String) : Contents :=
  ⟨c.tables.filter fun t => !t.isNamed name⟩

/-- What a schema statement makes of the database, nothing if it is refused. -/
def define (c : Contents) : SchemaStatement → Option Contents
  | .createTable t => c.createTable t
  | .createIndex table column => c.createIndex table column
  | .dropTable name => some (c.dropTable name)

end Contents

end Tabula
