import Tabula.Proofs.Engine.Creation
import Tabula.Proofs.Schema.Coexistence
import Tabula.Proofs.Text.LetterCase

/-! # The names that a schema creates

The tables and indexes of a built schema have names that differ in lower case
(`Tabula.Table.nodup_createdNames`), and all the more for an engine, which takes fewer names for one.
Every index is created after its table (`Tabula.Table.createTable_before_createIndex`). So where a
database has none of the names, no statement finds its name taken by the ones before it
(`Tabula.Schema.not_holds_of_runAll`).
-/

namespace Tabula

/-- What the text of a statement begins with. -/
def SchemaStatement.opening : SchemaStatement → String
  | createTable _ => "CREATE TABLE IF NOT EXISTS "
  | createIndex _ column =>
    "CREATE " ++ (if column.unique then "UNIQUE " else "") ++ "INDEX IF NOT EXISTS "
  | dropTable _ => "DROP TABLE IF EXISTS "

namespace Dialect

variable {d : Dialect}

/-- The statement that creates a table, with one line for each column. -/
theorem createTable_eq (t : Table) :
    d.createTable t = "CREATE TABLE IF NOT EXISTS " ++ d.quote t.name ++
      (" (\n" ++ (",\n".intercalate (t.columns.map fun c =>
        "    " ++ d.definition c (t.associationOf? c.name)) ++ "\n)")) := by
  unfold createTable
  simp only [String.append_assoc]

private theorem createIndex_eq (table : String) (c : Column) :
    d.createIndex table c =
      "CREATE " ++ (if c.unique then "UNIQUE " else "") ++ "INDEX IF NOT EXISTS " ++
        d.quote (c.indexName table) ++
          (" ON " ++ (d.quote table ++ (" (" ++ (d.quote c.name ++ ")")))) := by
  unfold createIndex
  simp only [String.append_assoc]

/-- The text of a statement shows the name that it creates after its first words. -/
theorem render_eq_opening {s : SchemaStatement} {name : String}
    (creates : s.created? = some name) : ∃ rest, d.render s = s.opening ++ d.quote name ++ rest := by
  cases s with
  | createTable t =>
      obtain rfl := Option.some.inj creates
      exact ⟨_, createTable_eq t⟩
  | createIndex table column =>
      obtain rfl := Option.some.inj creates
      exact ⟨_, createIndex_eq table column⟩
  | dropTable table => cases creates

end Dialect

/-! ## The names of tables and their indexes -/

namespace Table

variable {ts : List Table} {t t' : Table} {name : String}

/-- The name of the table and those of its indexes. -/
def createdNames (t : Table) : List String :=
  t.name :: (t.columns.filter (·.needsIndex)).map (·.indexName t.name)

/-- The statements of a table create what its names are of. -/
theorem filterMap_created? (t : Table) :
    t.schemaStatements.filterMap (·.created?) = t.createdNames := by
  have ofTable : (SchemaStatement.createTable t).created? = some t.name := rfl
  rw [schemaStatements, List.filterMap_cons_some ofTable, List.filterMap_map, createdNames,
    ← List.filterMap_eq_map]
  rfl

/-- A table creates its own name and those of the indexes that its columns need. -/
theorem mem_createdNames :
    name ∈ t.createdNames ↔
      name = t.name ∨ ∃ c ∈ t.columns, c.needsIndex = true ∧ name = c.indexName t.name := by
  simp only [createdNames, List.mem_cons, List.mem_map, List.mem_filter, and_assoc, eq_comm]

/-- Columns of one table have indexes of different names. -/
theorem nodup_indexNames (compatible : Compatible ts) (member : t ∈ ts)
    (faultless : t.faults = []) :
    ((t.columns.filter (·.needsIndex)).map fun c => lowerIndexName (t, c)).Nodup := by
  have columns := nodup_columnNames faultless
  refine List.Nodup.map_on (fun c isColumn c' isColumn' same => ?_) (columns.of_map.filter _)
  obtain ⟨memberC, indexed⟩ := List.mem_filter.mp isColumn
  obtain ⟨memberC', indexed'⟩ := List.mem_filter.mp isColumn'
  have owner : (t, c') ∈ indexOwners ts := mem_indexOwners.mpr ⟨member, memberC', indexed'⟩
  have other : (t, c) ∈ indexOwners ts := mem_indexOwners.mpr ⟨member, memberC, indexed⟩
  have sameName := ((compatible.indexes _ owner).2 _ other same).2
  exact List.inj_on_of_nodup_map columns memberC memberC' sameName

/-- A table and its indexes have different names. -/
theorem nodup_lower_createdNames (compatible : Compatible ts) (member : t ∈ ts)
    (faultless : t.faults = []) : (t.createdNames.map Text.lower).Nodup := by
  rw [createdNames, List.map_cons, List.map_map, List.nodup_cons]
  refine ⟨fun taken => ?_, nodup_indexNames compatible member faultless⟩
  obtain ⟨c, isColumn, named⟩ := List.mem_map.mp taken
  obtain ⟨memberC, indexed⟩ := List.mem_filter.mp isColumn
  have owner : (t, c) ∈ indexOwners ts := mem_indexOwners.mpr ⟨member, memberC, indexed⟩
  exact (compatible.indexes _ owner).1 t member named.symm

/-- No name of a table and its indexes is one of another table and its indexes. -/
theorem disjoint_lower_createdNames (compatible : Compatible ts) (member : t ∈ ts)
    (member' : t' ∈ ts) (apart : Text.lower t.name ≠ Text.lower t'.name) :
    (t.createdNames.map Text.lower).Disjoint (t'.createdNames.map Text.lower) := by
  intro lowerName inFirst inSecond
  obtain ⟨first, isFirst, rfl⟩ := List.mem_map.mp inFirst
  obtain ⟨second, isSecond, same⟩ := List.mem_map.mp inSecond
  rcases mem_createdNames.mp isFirst with rfl | ⟨c, memberC, indexed, rfl⟩ <;>
    rcases mem_createdNames.mp isSecond with rfl | ⟨c', memberC', indexed', rfl⟩
  · exact apart same.symm
  · have owner : (t', c') ∈ indexOwners ts := mem_indexOwners.mpr ⟨member', memberC', indexed'⟩
    exact (compatible.indexes _ owner).1 t member same.symm
  · have owner : (t, c) ∈ indexOwners ts := mem_indexOwners.mpr ⟨member, memberC, indexed⟩
    exact (compatible.indexes _ owner).1 t' member' same
  · have owner : (t, c) ∈ indexOwners ts := mem_indexOwners.mpr ⟨member, memberC, indexed⟩
    have other : (t', c') ∈ indexOwners ts := mem_indexOwners.mpr ⟨member', memberC', indexed'⟩
    have sameTable := ((compatible.indexes _ owner).2 _ other same).1
    exact apart (congrArg Text.lower sameTable.symm)

/-- Tables that can live together, and their indexes, have different names. -/
theorem nodup_createdNames (compatible : Compatible ts) (faultless : ∀ t ∈ ts, t.faults = []) :
    ((ts.flatMap createdNames).map Text.lower).Nodup := by
  rw [List.map_flatMap, List.nodup_flatMap]
  refine ⟨fun t member => nodup_lower_createdNames compatible member (faultless t member), ?_⟩
  refine (List.pairwise_map.mp compatible.names).imp_of_mem fun member member' apart => ?_
  exact disjoint_lower_createdNames compatible member member' apart

/-- The statement that creates an index comes after the one that creates its table. -/
theorem createTable_before_createIndex {table : String} {c : Column}
    {before after : List SchemaStatement}
    (split : ts.flatMap (·.schemaStatements) = before ++ .createIndex table c :: after) :
    ∃ t, .createTable t ∈ before ∧ t.name = table ∧ c ∈ t.columns := by
  induction ts generalizing before with
  | nil => simp at split
  | cons t ts ih =>
      rw [List.flatMap_cons, schemaStatements, List.cons_append] at split
      cases before with
      | nil => cases split
      | cons first before =>
          obtain ⟨rfl, rest⟩ := List.cons.inj split
          rcases List.append_eq_append_iff.mp rest with ⟨later, rfl, ofRest⟩ | ⟨own, ofTable, tail⟩
          · obtain ⟨other, created, named⟩ := ih ofRest
            exact ⟨other, List.mem_cons_of_mem _ (List.mem_append_right _ created), named⟩
          · cases own with
            | nil =>
                obtain ⟨other, created, -⟩ := @ih [] tail.symm
                exact absurd created List.not_mem_nil
            | cons statement own =>
                obtain ⟨rfl, -⟩ := List.cons.inj tail
                have ofColumn : SchemaStatement.createIndex table c ∈
                    (t.columns.filter (·.needsIndex)).map (SchemaStatement.createIndex t.name) :=
                  ofTable ▸ List.mem_append_right _ List.mem_cons_self
                obtain ⟨column, isColumn, same⟩ := List.mem_map.mp ofColumn
                obtain ⟨rfl, rfl⟩ := SchemaStatement.createIndex.inj same
                exact ⟨t, List.mem_cons_self, rfl, (List.mem_filter.mp isColumn).1⟩

end Table

/-! ## The names of a schema -/

namespace Schema

variable {s : Schema} {before after : List SchemaStatement} {statement : SchemaStatement}

/-- The names of the tables and indexes that the statements create. -/
def createdNames (s : Schema) : List String :=
  s.schemaStatements.filterMap (·.created?)

/-- A schema creates the names of its tables, table by table. -/
theorem createdNames_eq_flatMap (s : Schema) :
    s.createdNames = s.tables.flatMap Table.createdNames := by
  rw [createdNames, schemaStatements, List.filterMap_flatMap]
  exact List.flatMap_congr fun t _ => t.filterMap_created?

private theorem created?_of_mem (member : statement ∈ s.schemaStatements) :
    ∃ name, statement.created? = some name := by
  obtain ⟨t, -, ofTable⟩ := List.mem_flatMap.mp member
  rcases List.mem_cons.mp ofTable with rfl | ofIndexes
  · exact ⟨_, rfl⟩
  · obtain ⟨c, -, rfl⟩ := List.mem_map.mp ofIndexes
    exact ⟨_, rfl⟩

/-- Where a database has no name that the schema creates, and no two of these names are one name for
the engine, a statement does not find its name taken after the statements before it. -/
theorem not_holds_of_runAll {e next : Engine} {name : String}
    (apart : s.createdNames.Pairwise fun a b => Text.sameName a b = false)
    (absent : ∀ name ∈ s.createdNames, e.contents.holds name = false)
    (split : s.schemaStatements = before ++ statement :: after)
    (done : Migration.runAll before e = .ok next) (creates : statement.created? = some name) :
    next.contents.holds name = false := by
  have names : s.createdNames =
      before.filterMap (·.created?) ++ name :: after.filterMap (·.created?) := by
    rw [createdNames, split, List.filterMap_append, List.filterMap_cons_some creates]
  rw [names] at apart absent
  by_contra held
  rcases Migration.holds_of_runAll done (Bool.eq_true_of_not_eq_false held) with
    initial | ⟨earlier, member, created, ofEarlier, same⟩
  · have free := absent name (List.mem_append_right _ List.mem_cons_self)
    exact Bool.false_ne_true (free.symm.trans initial)
  · have inBefore : created ∈ before.filterMap (·.created?) :=
      List.mem_filterMap.mpr ⟨earlier, member, ofEarlier⟩
    have different := (List.pairwise_append.mp apart).2.2 created inBefore name List.mem_cons_self
    exact Bool.false_ne_true (different.symm.trans same)

end Schema

namespace SchemaPlan

variable {d : Dialect} {p : SchemaPlan} {s : Schema}

/-- The texts of a built schema are those of its statements. -/
theorem statements_eq_map_render (built : p.build d = .ok s) :
    s.statements = s.schemaStatements.map d.render := by
  rw [Schema.statements, ddl_eq_map built, List.flatMap_map, Schema.schemaStatements,
    List.map_flatMap]
  refine List.flatMap_congr fun t _ => ?_
  rw [TableDdl.statements, Table.ddl, Table.schemaStatements, List.map_cons, List.map_map]
  rfl

/-- **The names of a built schema.** The texts of the statements show the names that they create. No
two of these names are one name for the engine, and every index is created after its table. So on a
database that has none of the names, no statement finds its name taken when its turn comes: if it is
not refused, it creates its table or its index. -/
theorem createdNames_apart (built : p.build d = .ok s) :
    (s.statements = s.schemaStatements.map d.render ∧
      ∀ statement ∈ s.schemaStatements, ∃ name rest, statement.created? = some name ∧
        d.render statement = statement.opening ++ d.quote name ++ rest) ∧
    (s.createdNames.Pairwise fun a b => Text.sameName a b = false) ∧
    (∀ before table column after,
      s.schemaStatements = before ++ .createIndex table column :: after →
        ∃ t, .createTable t ∈ before ∧ t.name = table ∧ column ∈ t.columns) ∧
    ∀ e : Engine, (∀ name ∈ s.createdNames, e.contents.holds name = false) →
      ∀ before statement after next, s.schemaStatements = before ++ statement :: after →
        Migration.runAll before e = .ok next →
          ∃ name, statement.created? = some name ∧ next.contents.holds name = false ∧
            ∀ done, next.define statement = some done → done.contents.holds name = true := by
  have faultless : ∀ t ∈ s.tables, t.faults = [] :=
    fun t member => (faultless_of_built built member).2
  have apart : s.createdNames.Pairwise fun a b => Text.sameName a b = false := by
    rw [Schema.createdNames_eq_flatMap]
    have lowered := Table.nodup_createdNames (compatible_of_built built) faultless
    exact (List.pairwise_map.mp lowered).imp fun different => Text.sameName_eq_false different
  refine ⟨⟨statements_eq_map_render built, fun statement member => ?_⟩, apart,
    fun before table column after => Table.createTable_before_createIndex, ?_⟩
  · obtain ⟨name, creates⟩ := Schema.created?_of_mem member
    obtain ⟨rest, text⟩ := Dialect.render_eq_opening (d := d) creates
    exact ⟨name, rest, creates, text⟩
  · intro e absent before statement after next split done
    have member : statement ∈ s.schemaStatements :=
      split ▸ List.mem_append_right _ List.mem_cons_self
    obtain ⟨name, creates⟩ := Schema.created?_of_mem member
    refine ⟨name, creates, Schema.not_holds_of_runAll apart absent split done creates, ?_⟩
    intro after' defined
    obtain ⟨contents, isAfter, rfl⟩ := Option.map_eq_some_iff.mp defined
    exact Contents.holds_of_created isAfter creates

/-- Two tables and an index are created under three names. -/
theorem createdNames_apart_library : ∃ s, (library "author" "É").build .sqlite = .ok s ∧
    s.createdNames.Perm ["É", "book", "index_author_on_book"] ∧
    s.createdNames.Pairwise fun a b => Text.sameName a b = false := by
  have built := @build_library .sqlite "É" rfl
  refine ⟨_, built, ?_, (createdNames_apart built).2.1⟩
  rw [Schema.createdNames_eq_flatMap]
  exact (inNameOrder_sorted (library "author" "É")).perm.flatMap_right Table.createdNames

end SchemaPlan

end Tabula
