import Mathlib.Data.List.Basic
import Tabula.Session.Migration

/-! # What schema statements create

Tables and indexes share one space of names. A statement that is not refused adds at most the name
that it creates (`Tabula.Contents.holds_of_define`), which is there afterwards
(`Tabula.Contents.holds_of_created`); so a run of statements adds at most the names that they create
(`Tabula.Migration.holds_of_runAll`). A statement is skipped only where its name is there before.
-/

namespace Tabula

/-- The name of the table or the index that the statement creates. -/
def SchemaStatement.created? : SchemaStatement → Option String
  | createTable t => some t.name
  | createIndex table column => some (column.indexName table)
  | dropTable _ => none

namespace Contents

variable {c c' : Contents} {s : SchemaStatement} {name created : String}

/-- Whether a table or an index of the database has the name. -/
def holds (c : Contents) (name : String) : Bool :=
  (c.table? name).isSome || c.hasIndex name

/-- A name is held by a table or by an index of one. -/
theorem holds_iff :
    c.holds name = true ↔ ∃ t ∈ c.tables, Text.sameName t.name name = true ∨
      ∃ i ∈ t.indexes, Text.sameName i.name name = true := by
  simp only [holds, table?, hasIndex, Bool.or_eq_true, List.find?_isSome, List.any_eq_true,
    StoredTable.isNamed]
  constructor
  · rintro (⟨t, member, named⟩ | ⟨t, member, indexed⟩)
    · exact ⟨t, member, Or.inl named⟩
    · exact ⟨t, member, Or.inr indexed⟩
  · rintro ⟨t, member, named | indexed⟩
    · exact Or.inl ⟨t, member, named⟩
    · exact Or.inr ⟨t, member, indexed⟩

/-- The name of a table is held. -/
theorem holds_of_table? (found : (c.table? name).isSome = true) : c.holds name = true := by
  rw [holds, found, Bool.true_or]

/-- The name of an index is held. -/
theorem holds_of_hasIndex (found : c.hasIndex name = true) : c.holds name = true := by
  rw [holds, found, Bool.or_true]

/-! ## One statement -/

/-- A table that is created by a statement is new, or it was there and the statement is skipped. -/
theorem createTable_eq_some {t : Table} (done : c.createTable t = some c') :
    ((c.table? t.name).isSome = true ∧ c' = c) ∨ c' = ⟨c.tables ++ [.new t]⟩ := by
  unfold createTable at done
  split at done
  · cases done
  · split at done
    · rename_i found
      exact Or.inl ⟨found, (Option.some.inj done).symm⟩
    · split at done
      · cases done
      · exact Or.inr (Option.some.inj done).symm

/-- An index that is created by a statement is added to its table, or it was there and the statement
is skipped. -/
theorem createIndex_eq_some {table : String} {column : Column}
    (done : c.createIndex table column = some c') :
    (c.hasIndex (column.indexName table) = true ∧ c' = c) ∨
      (c.table? table).isSome = true ∧
        c' = c.modify table fun t =>
          { t with indexes := t.indexes ++ [⟨column.indexName table, column⟩] } := by
  unfold createIndex at done
  cases found : c.table? table with
  | none =>
      rw [found] at done
      cases done
  | some t =>
      simp only [found] at done
      split at done
      · cases done
      · split at done
        · rename_i present
          exact Or.inl ⟨present, (Option.some.inj done).symm⟩
        · split at done
          · split at done
            · cases done
            · exact Or.inr ⟨rfl, (Option.some.inj done).symm⟩
          · cases done

/-- A new table holds one more name, its own. -/
theorem holds_append_new {t : Table} :
    (Contents.mk (c.tables ++ [.new t])).holds name = true ↔
      c.holds name = true ∨ Text.sameName t.name name = true := by
  simp [holds_iff, or_and_right, exists_or, StoredTable.new, StoredTable.name]

/-- With a new index no other name is held than its own and those from before. -/
theorem holds_modify_indexes {table : String} {index : StoredIndex}
    (held : (c.modify table fun t => { t with indexes := t.indexes ++ [index] }).holds name =
      true) :
    c.holds name = true ∨ Text.sameName index.name name = true := by
  obtain ⟨changed, member, named⟩ := holds_iff.mp held
  obtain ⟨t, ofContents, rfl⟩ := List.mem_map.mp member
  rw [holds_iff]
  by_cases isTarget : t.isNamed table = true
  · rw [if_pos isTarget] at named
    rcases named with sameTable | ⟨i, present, sameIndex⟩
    · exact Or.inl ⟨t, ofContents, Or.inl sameTable⟩
    · rcases List.mem_append.mp present with before | added
      · exact Or.inl ⟨t, ofContents, Or.inr ⟨i, before, sameIndex⟩⟩
      · rw [List.mem_singleton.mp added] at sameIndex
        exact Or.inr sameIndex
  · rw [if_neg isTarget] at named
    exact Or.inl ⟨t, ofContents, named⟩

/-- A statement adds no other name than the one that it creates. -/
theorem holds_of_define (done : c.define s = some c') (held : c'.holds name = true) :
    c.holds name = true ∨
      ∃ created, s.created? = some created ∧ Text.sameName created name = true := by
  cases s with
  | createTable t =>
      rcases createTable_eq_some done with ⟨-, rfl⟩ | rfl
      · exact Or.inl held
      · exact (holds_append_new.mp held).imp_right fun same => ⟨t.name, rfl, same⟩
  | createIndex table column =>
      rcases createIndex_eq_some done with ⟨-, rfl⟩ | ⟨-, rfl⟩
      · exact Or.inl held
      · exact (holds_modify_indexes held).imp_right fun same => ⟨_, rfl, same⟩
  | dropTable table =>
      obtain rfl := Option.some.inj done
      obtain ⟨t, remaining, named⟩ := holds_iff.mp held
      exact Or.inl (holds_iff.mpr ⟨t, (List.mem_filter.mp remaining).1, named⟩)

/-- The name that a statement creates is there after it. -/
theorem holds_of_created (done : c.define s = some c') (creates : s.created? = some created) :
    c'.holds created = true := by
  cases s with
  | createTable t =>
      obtain rfl := Option.some.inj creates
      rcases createTable_eq_some done with ⟨found, rfl⟩ | rfl
      · exact holds_of_table? found
      · exact holds_append_new.mpr (Or.inr (Text.sameName_refl _))
  | createIndex table column =>
      obtain rfl := Option.some.inj creates
      rcases createIndex_eq_some done with ⟨found, rfl⟩ | ⟨found, rfl⟩
      · exact holds_of_hasIndex found
      · obtain ⟨t, isTable⟩ := Option.isSome_iff_exists.mp found
        refine holds_iff.mpr ⟨_, List.mem_map_of_mem (List.mem_of_find?_eq_some isTable), ?_⟩
        rw [if_pos (List.find?_some isTable)]
        exact Or.inr ⟨_, List.mem_append_right _ List.mem_cons_self, Text.sameName_refl _⟩
  | dropTable table => cases creates

end Contents

/-! ## Runs of statements -/

namespace Migration

variable {e e' : Engine} {statements : List SchemaStatement} {name : String}

/-- A run of statements adds no other names than those that the statements create. -/
theorem holds_of_runAll (done : runAll statements e = .ok e')
    (held : e'.contents.holds name = true) :
    e.contents.holds name = true ∨ ∃ s ∈ statements, ∃ created,
      s.created? = some created ∧ Text.sameName created name = true := by
  induction statements generalizing e with
  | nil =>
      obtain rfl := Except.ok.inj done
      exact Or.inl held
  | cons s rest ih =>
      simp only [runAll] at done
      split at done
      · rename_i next defined
        obtain ⟨contents, isNext, rfl⟩ := Option.map_eq_some_iff.mp defined
        rcases ih done with before | ⟨later, member, creates⟩
        · rcases Contents.holds_of_define isNext before with earlier | creates
          · exact Or.inl earlier
          · exact Or.inr ⟨s, List.mem_cons_self, creates⟩
        · exact Or.inr ⟨later, List.mem_cons_of_mem s member, creates⟩
      · cases done

end Migration

end Tabula
