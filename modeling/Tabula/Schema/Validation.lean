import Tabula.Schema.Cycle
import Tabula.Schema.Table

/-! # Validation of tables

What can be wrong with a table by itself (`Table.faults`) and with tables that are to live in one
database (`Table.faultsTogether`). Names are compared in lower case, as Unicode knows it. Every
check reports on its own; none waits for another to pass.
-/

namespace Tabula

/-- What is wrong with a table, or between tables. -/
inductive TableFault where
  /-- The column shares its name with another, up to case. -/
  | duplicateColumn (table lowerName column field : String)
  /-- The table has no column. -/
  | noColumn (table : String)
  /-- The table has several keys. -/
  | severalKeys (table : String) (columns : List String)
  /-- The table shares its name with another, up to case. -/
  | duplicateTable (lowerName model : String)
  /-- The association references no table at hand. -/
  | unknownTarget (table column target : String)
  /-- The association references a table without a key. -/
  | targetWithoutKey (table column target : String)
  /-- The index of a column shares its name with a table or another index, up to case. -/
  | duplicateIndex (index table column other : String)
  /-- Associations lead in a circle. -/
  | cycle (path : List String)
deriving DecidableEq

namespace TableFault

/-- The message of a fault. -/
def message : TableFault → String
  | duplicateColumn table lowerName _ field =>
    "Duplicate column names \"" ++ lowerName ++ "\" found in " ++ table ++ " (field `" ++ field ++
      "`)"
  | noColumn table => "No column nor primary key is defined in " ++ table
  | severalKeys table columns =>
    "Multiple primary keys found in " ++ table ++ ": " ++ ", ".intercalate columns
  | duplicateTable lowerName model =>
    "Duplicate table names \"" ++ lowerName ++ "\" found (model `" ++ model ++ "`)"
  | unknownTarget table column target =>
    table ++ "." ++ column ++ " references unknown table " ++ target
  | targetWithoutKey table column target =>
    table ++ "." ++ column ++ " references " ++ target ++ ", which has no primary key column"
  | duplicateIndex index table column other =>
    "Index name \"" ++ index ++ "\" of " ++ table ++ "." ++ column ++ " collides with " ++ other
  | cycle path => "Association cycle: " ++ " -> ".intercalate path

/-- What the fault is reported against: a table, or the model of a table whose name is taken. -/
def subject : TableFault → String
  | duplicateColumn table .. | noColumn table | severalKeys table _ | unknownTarget table ..
  | targetWithoutKey table .. | duplicateIndex _ table .. => table
  | duplicateTable _ model => model
  | cycle path => path.head?.getD ""

end TableFault

namespace Table

/-! ## One table -/

/-- How many columns have the name, given in lower case. -/
def countNamed (t : Table) (lowerName : String) : Nat :=
  t.columns.countP fun c => Text.lower c.name == lowerName

/-- One fault for each column that shares its name. -/
def duplicateColumns (t : Table) : List TableFault :=
  (t.columns.filter fun c => 1 < t.countNamed (Text.lower c.name)).map fun c =>
    .duplicateColumn t.name (Text.lower c.name) c.name c.field

/-- The names of the key columns. -/
def keyNames (t : Table) : List String :=
  (t.columns.filter (·.primaryKey)).map (·.name)

/-- Every fault of the table by itself. -/
def faults (t : Table) : List TableFault :=
  t.duplicateColumns ++
  (if t.columns.isEmpty then [.noColumn t.name] else []) ++
  (if 1 < t.keyNames.length then [.severalKeys t.name t.keyNames] else [])

/-! ## Tables of one database -/

/-- Tables that share a name up to case. -/
structure Group where
  /-- The shared name in lower case. -/
  lowerName : String
  /-- The tables, in their given order. -/
  members : List Table

/-- The tables by name in lower case, in the order of these names. -/
def groups (ts : List Table) : List Group :=
  let names := (ts.map fun t => Text.lower t.name).eraseDups.mergeSort fun a b => decide (a ≤ b)
  names.map fun name => ⟨name, ts.filter fun t => Text.lower t.name == name⟩

/-- The group of a name in lower case. -/
def group? (gs : List Group) (lowerName : String) : Option Group :=
  gs.find? (·.lowerName == lowerName)

/-- One fault for each table that shares its name. -/
def duplicateTables (gs : List Group) : List TableFault :=
  (gs.filter fun g => 1 < g.members.length).flatMap fun g =>
    g.members.map fun t => .duplicateTable g.lowerName t.model

/-- The fault of an association whose target is not there, or has no key. -/
def targetFault? (gs : List Group) (t : Table) (a : Association) : Option TableFault :=
  match group? gs (Text.lower a.target) with
  | none => some (.unknownTarget t.name a.column a.target)
  | some g =>
    if g.members.any (!·.hasKey) then some (.targetWithoutKey t.name a.column a.target) else none

/-- The faults of associations. -/
def targetFaults (gs : List Group) (ts : List Table) : List TableFault :=
  ts.flatMap fun t => t.associations.filterMap (targetFault? gs t)

/-- The tables whose names no other table has, in the order of the groups. -/
def singles (gs : List Group) : List Table :=
  (gs.filter fun g => g.members.length == 1).flatMap (·.members)

/-- The columns with an index of their own, each with its table. -/
def indexOwners (ts : List Table) : List (Table × Column) :=
  ts.flatMap fun t => (t.columns.filter (·.needsIndex)).map (t, ·)

/-- What else has the name of a column's index: a table, or the index of another column. -/
def indexClash? (gs : List Group) (owners : List (Table × Column)) (t : Table) (c : Column) :
    Option String :=
  let lowerName := Text.lower (c.indexName t.name)
  match (group? gs lowerName).bind (·.members.head?) with
  | some clashing => some ("table " ++ clashing.name)
  | none =>
    let other := owners.find? fun (t', c') =>
      Text.lower (c'.indexName t'.name) == lowerName && (t'.name, c'.name) != (t.name, c.name)
    other.map fun (t', c') => "the index of " ++ t'.name ++ "." ++ c'.name

/-- One fault for each index whose name is taken. Tables that share their name are left out. -/
def duplicateIndexes (gs : List Group) : List TableFault :=
  let owners := indexOwners (singles gs)
  owners.filterMap fun (t, c) =>
    (indexClash? gs owners t c).map (.duplicateIndex (c.indexName t.name) t.name c.name)

/-- The graph of associations between names in lower case. -/
def associationGraph (gs : List Group) : Graph where
  nodes := gs.map (·.lowerName)
  targets name :=
    match group? gs name with
    | none => []
    | some g =>
      let targets := g.members.flatMap fun t => t.associations.map fun a => Text.lower a.target
      let known := targets.filter fun target => (group? gs target).isSome
      known.eraseDups.mergeSort fun a b => decide (a ≤ b)

/-- The name by which a cycle shows a group: that of its first table. -/
def displayName (gs : List Group) (lowerName : String) : String :=
  (((group? gs lowerName).bind (·.members.head?)).map (·.name)).getD lowerName

/-- One fault for each cycle that a walk along the associations meets. -/
def associationCycles (gs : List Group) : List TableFault :=
  (associationGraph gs).cycles.map fun path => .cycle (path.map (displayName gs))

/-- The faults of tables among each other, in the order in which they are found. -/
def faultsTogether (ts : List Table) : List TableFault :=
  let gs := groups ts
  duplicateTables gs ++ targetFaults gs ts ++ duplicateIndexes gs ++ associationCycles gs

end Table

end Tabula
