import Tabula.Schema.Digest
import Tabula.Schema.Problem

/-! # Schemas

A schema is a validated set of tables with the texts that create them. It is built from models and
tables in any order (`SchemaPlan`): tables are put in the order of their names, checked one by one,
then together, then compiled. All problems of a set are reported at once.
-/

namespace Tabula

namespace Table

/-- The statements that create the table and its indexes. -/
def schemaStatements (t : Table) : List SchemaStatement :=
  .createTable t :: (t.columns.filter (·.needsIndex)).map (.createIndex t.name)

/-- The texts of the statements in a dialect. -/
def ddl (d : Dialect) (t : Table) : TableDdl where
  table := t.name
  createTable := d.createTable t
  createIndexes := (t.columns.filter (·.needsIndex)).map (d.createIndex t.name)

/-- The first association of a column that the table has not. -/
def dangling? (t : Table) : Option Association :=
  t.associations.find? fun a => !t.columns.any (·.name == a.column)

/-- The texts that create the table, if it has no fault and no association is left over. -/
def compile (d : Dialect) (t : Table) : Except CompilationError TableDdl :=
  match t.faults, t.dangling? with
  | fault :: _, _ => .error (.unvalidated fault)
  | [], some a => .error (.danglingColumn t.name a.column)
  | [], none => .ok (t.ddl d)

end Table

/-- A validated set of tables with the texts that create them. -/
structure Schema where
  /-- The tables, in the order of their names. -/
  tables : List Table
  /-- The texts, table by table. -/
  ddl : List TableDdl

namespace Schema

/-- The first table of a name, in any ASCII case. -/
def find? (s : Schema) (name : String) : Option Table :=
  s.tables.find? fun t => Text.sameName t.name name

/-- The texts of all statements, in the order of execution. -/
def statements (s : Schema) : List String :=
  s.ddl.flatMap (·.statements)

/-- The statements that create the tables and indexes, in the order of execution. -/
def schemaStatements (s : Schema) : List SchemaStatement :=
  s.tables.flatMap (·.schemaStatements)

/-- The digest of the statements. -/
def digest (s : Schema) : String :=
  Ddl.digest s.ddl

end Schema

/-- What a schema is to be built from. -/
structure SchemaPlan where
  /-- The tables, in the order in which they were added. -/
  tables : List Table
  /-- The faults of models that have no table. -/
  errors : List ExtractionError

namespace SchemaPlan

/-- The plan of no table. -/
def empty : SchemaPlan := ⟨[], []⟩

/-- The plan with one more table. -/
def withTable (p : SchemaPlan) (t : Table) : SchemaPlan :=
  { p with tables := p.tables ++ [t] }

/-- The plan with the table of one more model, or its faults. -/
def withDeclaration (p : SchemaPlan) (d : Declaration) : SchemaPlan :=
  match d.extract with
  | .ok t => p.withTable t
  | .error errors => { p with errors := p.errors ++ errors }

/-- The tables in the order of their names; tables of one name keep their order. -/
def sorted (p : SchemaPlan) : List Table :=
  p.tables.mergeSort fun a b => decide (a.name ≤ b.name)

/-- The problems before compilation. -/
def problems (p : SchemaPlan) : List Problem :=
  p.errors.map .extraction ++
  (p.sorted.flatMap (·.faults)).map .validation ++
  (Table.faultsTogether p.sorted).map .validation

/-- The schema in a dialect, or all problems of the plan. -/
def build (d : Dialect) (p : SchemaPlan) : Except (List Problem) Schema :=
  match p.problems with
  | [] =>
    match p.sorted.mapM (·.compile d) with
    | .ok ddl => .ok ⟨p.sorted, ddl⟩
    | .error e => .error [.compilation e]
  | problems => .error problems

/-- The plan of models only. -/
def ofDeclarations (ds : List Declaration) : SchemaPlan :=
  ds.foldl withDeclaration empty

end SchemaPlan

end Tabula
