import Tabula.Proofs.Engine.Creation
import Tabula.Proofs.Engine.Insertion
import Tabula.Proofs.Session.Undoing

/-! # Reading back the stored digest

A digest that is stored is found again, if the table of the record is the one that is made for it
(`Tabula.DigestRecord.load_of_save`): the new row displaces whatever it clashes with, and what is read
is the one row with its key. What is stored depends only on the tables that go by the record's name
(`Tabula.DigestRecord.load_eq_of_same`).
-/

namespace Tabula

namespace StoredTable

/-- A statement that replaces writes every row whose values are complete, and all rows that clash
with it go. -/
theorem exists_accept_replace (t : StoredTable) {looked : List String} {row values : Row}
    (rowid : Int64) (filled : fillRow .replace looked t.definition.columns row = .ok values) :
    ∃ displaced, t.accept .replace none looked ⟨rowid, row⟩ = .ok ⟨values, displaced⟩ ∧
      ∀ r ∈ t.rows, ∀ rule ∈ t.rules .replace rowid values, rule.clashes r = true →
        r.rowid ∈ displaced := by
  have yields : ∀ rule ∈ t.rules .replace rowid values, rule.policy = .replace := by
    intro rule member
    obtain ⟨own, -, rfl⟩ := List.mem_map.mp member
    rfl
  have split : (t.rules .replace rowid values).partition (·.policy = .replace) =
      (t.rules .replace rowid values, []) := by
    rw [List.partition_eq_filter_filter, List.filter_eq_self.mpr fun rule member => ?_,
      List.filter_eq_nil_iff.mpr fun rule member => ?_]
    · simp [yields rule member]
    · simp [yields rule member]
  have others : (t.rows.filter fun r => some r.rowid != none) = t.rows :=
    List.filter_eq_self.mpr fun r _ => rfl
  refine ⟨(t.rows.filter fun r => (t.rules .replace rowid values).any fun rule =>
    rule.clashes r).map (·.rowid), ?_, fun r member rule isRule clashes => ?_⟩
  · simp only [accept, filled, bind, Except.bind, split, List.find?_nil, others]
    rfl
  · refine List.mem_map_of_mem (List.mem_filter.mpr ⟨member, ?_⟩)
    exact List.any_eq_true.mpr ⟨rule, isRule, clashes⟩

end StoredTable

namespace Contents

variable {c : Contents} {n : String} {t u : StoredTable}

private theorem isSome_table?_of_createTable {c' : Contents} {t : Table}
    (done : c.createTable t = some c') : (c'.table? t.name).isSome = true := by
  rcases createTable_eq_some done with ⟨found, rfl⟩ | rfl
  · exact found
  · refine List.find?_isSome.mpr ⟨.new t, List.mem_append_right _ List.mem_cons_self, ?_⟩
    exact Text.sameName_refl t.name

/-- Tables of other names are as they were. -/
theorem filter_modify {p : StoredTable → Bool} {f : StoredTable → StoredTable}
    (others : ∀ t, t.isNamed n = true → p t = false ∧ p (f t) = false) :
    (c.modify n f).tables.filter p = c.tables.filter p := by
  refine filter_map_eq fun t _ => ?_
  by_cases named : t.isNamed n = true
  · obtain ⟨notBefore, notAfter⟩ := others t named
    rw [if_pos named, notBefore, notAfter]
    exact ⟨rfl, fun absurd => by cases absurd⟩
  · rw [if_neg named]
    exact ⟨rfl, fun _ => rfl⟩

/-- Writing a row of one table, rows of which it displaces, changes no other table. -/
theorem modify_erase_modify {row : StoredRow} {displaced : List Int64}
    (isName : t.name = n) :
    (((c.modify n fun _ => t).erase (displaced.map fun r => ⟨n, r⟩)).modify n
      fun u => (u.erase []).put row) = c.modify n fun _ => (t.erase displaced).put row := by
  have named : t.isNamed n = true := by rw [StoredTable.isNamed, isName, Text.sameName_refl]
  have going (u : StoredTable) : ((displaced.map fun r => RowPlace.mk n r).filter
      (·.table == u.name)).map (·.rowid) = if n == u.name then displaced else [] := by
    by_cases same : (n == u.name) = true
    · simp [List.filter_map, Function.comp_def, same]
    · simp [List.filter_map, Function.comp_def, same]
  simp only [modify, erase, List.map_map, going, Contents.mk.injEq]
  refine List.map_congr_left fun u member => ?_
  by_cases isNamed : u.isNamed n = true
  · have erased : (t.erase displaced).isNamed n = true := named
    simp [isNamed, isName, erased, erase_nil]
  · have apart : n ≠ u.name := by
      intro same
      exact isNamed (by rw [StoredTable.isNamed, same, Text.sameName_refl])
    simp [isNamed, apart, erase_nil]

end Contents

/-- No table of the schema goes by the name of the record of the digest. -/
def Schema.IsApart (s : Schema) : Prop :=
  ∀ t ∈ s.tables, Text.sameName t.name DigestRecord.tableName = false

namespace DigestRecord

variable {c c' : Contents} {e e' : Engine} {t : StoredTable} {stamp digest : String}

/-- The tables that go by the name of the record are made as it is. -/
def Sound (c : Contents) : Prop :=
  ∀ t ∈ c.tables, t.isNamed tableName = true → t.definition = table

/-- It is enough that every table is defined as one was. -/
theorem Sound.of_defined (sound : Sound c)
    (defined : ∀ t' ∈ c'.tables, ∃ t ∈ c.tables, t'.definition = t.definition) : Sound c' := by
  intro t' member' named
  obtain ⟨t, member, sameDefinition⟩ := defined t' member'
  rw [StoredTable.isNamed, StoredTable.name, sameDefinition] at named
  rw [sameDefinition]
  exact sound t member named

/-- The table of the record may be created, which adds to no selection of other tables. -/
theorem Sound.createTable (sound : Sound c) (done : c.createTable table = some c') :
    Sound c' ∧ ∀ p : StoredTable → Bool, (∀ t, t.isNamed tableName = true → p t = false) →
      c'.tables.filter p = c.tables.filter p := by
  rcases Contents.createTable_eq_some done with ⟨-, rfl⟩ | rfl
  · exact ⟨sound, fun _ _ => rfl⟩
  · constructor
    · intro t member named
      rcases List.mem_append.mp member with before | isNew
      · exact sound t before named
      · rw [List.mem_singleton.mp isNew]
        rfl
    · intro p others
      have notNew : ¬p (.new table) = true := by
        rw [others (.new table) (Text.sameName_refl tableName)]
        exact Bool.false_ne_true
      rw [List.filter_append, List.filter_cons_of_neg notNew, List.filter_nil, List.append_nil]

/-- What is stored depends only on the tables that go by the record's name. -/
theorem load_eq_of_same (same : e'.contents.tables.filter (·.isNamed tableName) =
    e.contents.tables.filter (·.isNamed tableName)) : load e' = load e := by
  have there (e : Engine) : isThere e =
      (e.contents.tables.filter (·.isNamed tableName)).any (·.name == tableName) := by
    rw [isThere, List.any_filter]
    refine congrArg (List.any _) (funext fun t => ?_)
    by_cases spelled : (t.name == tableName) = true
    · rw [StoredTable.isNamed, eq_of_beq spelled, Text.sameName_refl, Bool.true_and]
    · rw [Bool.eq_false_iff.mpr spelled, Bool.and_false]
  have found (e : Engine) : e.contents.table? tableName =
      (e.contents.tables.filter (·.isNamed tableName)).head? := by
    rw [Contents.table?, List.head?_filter]
  unfold load Contents.select Contents.readAll
  rw [there, there, found, found, same]
  rfl

/-! ## Writing the row -/

def rowOf (digest stamp : String) : Row := [.text key, .text digest, .text stamp]

/-- Whether a row has the key of the record. -/
def isRecord (r : StoredRow) : Bool :=
  (r.values.getD 0 .null).same .binary (.text key)

/-- The key of the record is unique. -/
theorem exists_keyRule (digest stamp : String) (columns : t.definition.columns = table.columns)
    (rowid : Int64) :
    ∃ rule ∈ t.rules .replace rowid (rowOf digest stamp), rule.clashes = isRecord := by
  have columnRules : t.columnRules (rowOf digest stamp) =
      [StoredTable.unique 0 ((Column.plain "key" .text).asKey false) .unset (rowOf digest stamp)] := by
    rw [StoredTable.columnRules, columns]
    rfl
  rw [StoredTable.rules, columnRules]
  exact ⟨_, List.mem_map_of_mem (List.mem_cons_of_mem _ (List.mem_append_right _
    List.mem_cons_self)), rfl⟩

/-- A row for the record can be written, and those with its key go for it. -/
theorem accept_rowOf (digest stamp : String) (columns : t.definition.columns = table.columns)
    (rowid : Int64) :
    ∃ displaced,
      t.accept .replace none table.columnNames ⟨rowid, rowOf digest stamp⟩ =
        .ok ⟨rowOf digest stamp, displaced⟩ ∧
      ∀ r ∈ t.rows, isRecord r = true → r.rowid ∈ displaced := by
  have filled : fillRow .replace table.columnNames t.definition.columns (rowOf digest stamp) =
      .ok (rowOf digest stamp) := by
    rw [columns]
    rfl
  obtain ⟨displaced, accepted, gone⟩ := t.exists_accept_replace rowid filled
  obtain ⟨rule, isRule, isKey⟩ := exists_keyRule digest stamp columns rowid
  exact ⟨displaced, accepted, fun r member has => gone r member rule isRule (isKey ▸ has)⟩

/-- The row is written into a table with the columns of the record if a position is left. -/
theorem insertRow_rowOf {p : Progress} {n : String} {rowid : Int64}
    (columns : t.definition.columns = table.columns) (found : p.contents.table? n = some t)
    (placed : t.rowidOf? (rowOf digest stamp) = some rowid) :
    ∃ displaced,
      Contents.insertRow false .replace n p (rowOf digest stamp) =
        .ok ⟨p.contents.modify t.name
          fun _ => (t.erase displaced).put ⟨rowid, rowOf digest stamp⟩, p.changed + 1, some rowid,
          rowid :: p.written⟩ ∧
      ∀ r ∈ t.rows, isRecord r = true → r.rowid ∈ displaced := by
  have noPlace : t.definition.rowidPlace? = none := by rw [Table.rowidPlace?, columns]; rfl
  have noAccount : t.keepsAccount = false := by rw [StoredTable.keepsAccount, columns]; rfl
  have counts : t.counting rowid = t := by simp [StoredTable.counting, noAccount]
  have values : t.withRowid rowid (rowOf digest stamp) = rowOf digest stamp := by
    rw [StoredTable.withRowid, noPlace]
  have names : t.definition.columnNames = table.columnNames := by
    rw [Table.columnNames, columns]
    rfl
  obtain ⟨displaced, accepted, gone⟩ := accept_rowOf digest stamp columns rowid
  refine ⟨displaced, ?_, gone⟩
  have foundSame : (p.contents.modify t.name fun _ => t).table? t.name = some t :=
    Contents.table?_modify_const (Contents.table?_name found) (Text.sameName_refl t.name)
  have written := Contents.write_of_accept foundSame accepted
  rw [← Contents.modify_erase_modify rfl]
  unfold Contents.insertRow
  simp only [found, placed, counts, values, names, accepted, written]
  rfl

private theorem mapM_insertedValue? (digest stamp : String) :
    [rowOf digest stamp].mapM (fun row =>
      table.columns.mapM (Contents.insertedValue? table.columnNames row)) =
        some [rowOf digest stamp] := by
  have apart : Text.sameName "key" "value" = false ∧ Text.sameName "key" "updated_at" = false ∧
      Text.sameName "value" "updated_at" = false := by decide +kernel
  simp [table, rowOf, Table.columnNames, Contents.insertedValue?, Text.sameName_refl, apart,
    Column.plain, Column.asKey, Value.bound, StorageType.store]

/-- What an insertion of the row makes of a table with the columns of the record: the row takes the
place of all rows with its key, if a position is left for it. -/
theorem insert_rowOf (digest stamp : String) (columns : t.definition.columns = table.columns)
    (found : c.table? tableName = some t) :
    (t.rowidOf? (rowOf digest stamp) = none ∧
      c.insert false ⟨.replace, tableName, table.columnNames, [rowOf digest stamp]⟩ =
        .refused c) ∨
    ∃ rowid displaced,
      c.insert false ⟨.replace, tableName, table.columnNames, [rowOf digest stamp]⟩ =
        .done (c.modify t.name fun _ => (t.erase displaced).put ⟨rowid, rowOf digest stamp⟩) 1
          (some rowid) ∧
      ∀ r ∈ t.rows, isRecord r = true → r.rowid ∈ displaced := by
  have again : (Progress.start c).contents.table? t.name = some t := Contents.table?_name found
  have known : (table.columnNames.all fun name => (t.definition.index? name).isSome) = true := by
    have ofTable : (table.columnNames.all fun name => (table.index? name).isSome) = true := by
      decide +kernel
    simpa only [Table.index?, columns] using ofTable
  have someColumns : table.columnNames.isEmpty = false := rfl
  have bound := mapM_insertedValue? digest stamp
  have insertion : c.insert false
      ⟨.replace, tableName, table.columnNames, [rowOf digest stamp]⟩ =
        Contents.conclude false c (·.row.table == t.name)
          (·.modify t.name fun now => { now with sequence := t.sequence })
          (Progress.run (Contents.insertRow false .replace t.name) [rowOf digest stamp]
            (.start c)) := by
    simp only [Contents.insert, found, columns, known, someColumns, bound, List.isEmpty_cons,
      Bool.false_and, Bool.not_true, Bool.or_self, Bool.false_eq_true, if_false]
  rw [insertion, Progress.run]
  cases placed : t.rowidOf? (rowOf digest stamp) with
  | none =>
      have refused : Contents.insertRow false .replace t.name (.start c) (rowOf digest stamp) =
          .error .abort := by
        simp only [Contents.insertRow, again, placed]
      rw [refused]
      exact Or.inl ⟨rfl, rfl⟩
  | some rowid =>
      obtain ⟨displaced, inserted, gone⟩ := insertRow_rowOf columns again placed
      rw [inserted]
      exact Or.inr ⟨rowid, displaced, rfl, gone⟩

/-- A digest can be stored in a table with the columns of the record that has a position left. -/
theorem exists_save (digest stamp : String) (free : e.enforced = false)
    (ensured : e.contents.createTable table = some c)
    (columns : t.definition.columns = table.columns) (found : c.table? tableName = some t)
    (room : t.rowidOf? (rowOf digest stamp) ≠ none) :
    ∃ e', save stamp digest e = (.ok (), e') ∧
      ∀ u' ∈ e'.contents.tables, ∃ u ∈ c.tables, u'.definition = u.definition := by
  have defined : e.define (.createTable table) = some { e with contents := c } :=
    congrArg (Option.map _) ensured
  rcases insert_rowOf digest stamp columns found with ⟨noRoom, -⟩ | ⟨rowid, displaced, done, -⟩
  · exact absurd noRoom room
  · refine ⟨{ e with
      contents := c.modify t.name fun _ => (t.erase displaced).put ⟨rowid, rowOf digest stamp⟩ },
      ?_, fun u' member => ?_⟩
    · rw [rowOf] at done
      simp only [save, ensure, defined, Engine.insert, Engine.change, free, done]
      rfl
    · obtain ⟨u, memberC, rfl⟩ := List.mem_map.mp member
      split
      · exact ⟨t, Contents.mem_of_table? found, rfl⟩
      · exact ⟨u, memberC, rfl⟩

/-! ## Finding the row -/

private theorem meets_condition (isTable : t.definition = table) (r : StoredRow) :
    t.meets [condition] r = isRecord r := by
  have cell : table.cell? "key" = some (.column 0 ((Column.plain "key" .text).asKey false)) := by
    decide +kernel
  have truth : condition.truth table r =
      ((r.values.getD 0 .null).compare? .binary (.text key)).map (· == .eq) := by
    rw [condition, Condition.truth, cell]
    rfl
  rw [StoredTable.meets, isTable, List.all_cons, List.all_nil, Bool.and_true, truth, isRecord,
    Value.same]
  cases (r.values.getD 0 .null).compare? .binary (.text key) with
  | none => rfl
  | some o => cases o <;> rfl

/-- What is read of a table in which one row has the key. -/
theorem select_of_filter {r : StoredRow} (isTable : t.definition = table)
    (found : c.table? tableName = some t) (only : t.rows.filter isRecord = [r]) :
    c.select ⟨tableName, ["value", "updated_at"], [condition], [], none, none⟩ =
      some [[r.values.getD 1 .null, r.values.getD 2 .null]] := by
  have cells : ["value", "updated_at"].mapM table.cell? =
      some [.column 1 (.plain "value" .text), .column 2 (.plain "updated_at" .text)] := by
    decide +kernel
  have known : t.knows [condition] = true := by
    rw [StoredTable.knows, isTable]
    decide +kernel
  have rows : t.filter [condition] = [r] := by
    rw [StoredTable.filter, ← only]
    exact List.filter_congr fun r _ => meets_condition isTable r
  have order : OrderTerm.cells? table [] = some [] := rfl
  have taken : SelectStatement.isTaken
      ⟨tableName, ["value", "updated_at"], [condition], [], none, none⟩ = true := by
    decide +kernel
  have whole (plan : Plan) (asked : Statement) :
      c.readAll plan asked ⟨tableName, ["value", "updated_at"], [condition], [], none, none⟩ =
        some [[r.values.getD 1 .null, r.values.getD 2 .null]] := by
    simp only [Contents.readAll, found, isTable, cells, order, taken, known, Bool.not_true,
      Bool.or_self, Bool.false_eq_true, if_false, rows, Plan.arrange_singleton]
    rfl
  rw [Contents.select, whole]
  rfl

private theorem isRecord_rowOf (rowid : Int64) : isRecord ⟨rowid, rowOf digest stamp⟩ = true := by
  have sameKey : (Value.text key).same .binary (.text key) = true := by decide +kernel
  exact sameKey

/-- The digest of the row is read where the row has taken the place of all rows with its key. -/
theorem load_of_contents {rowid : Int64} {displaced : List Int64} (isTable : t.definition = table)
    (found : c.table? tableName = some t)
    (gone : ∀ r ∈ t.rows, isRecord r = true → r.rowid ∈ displaced)
    (written : e'.contents = c.modify tableName
      fun _ => (t.erase displaced).put ⟨rowid, rowOf digest stamp⟩) :
    load e' = .ok (some digest) := by
  have isName : t.name = tableName := congrArg Table.name isTable
  have isTableAfter : ((t.erase displaced).put ⟨rowid, rowOf digest stamp⟩).definition = table :=
    isTable
  have named : ((t.erase displaced).put ⟨rowid, rowOf digest stamp⟩).isNamed tableName = true := by
    rw [StoredTable.isNamed, StoredTable.name, isTableAfter]
    exact Text.sameName_refl tableName
  have finds := Contents.table?_modify_const found named
  rw [← written] at finds
  have only : ((t.erase displaced).put ⟨rowid, rowOf digest stamp⟩).rows.filter isRecord =
      [⟨rowid, rowOf digest stamp⟩] := by
    refine StoredTable.filter_place (isRecord_rowOf rowid) fun r member => ?_
    obtain ⟨ofTable, stays⟩ := List.mem_filter.mp member
    by_contra isKey
    have displaces := gone r ofTable (Bool.eq_true_of_not_eq_false isKey)
    simp [displaces] at stays
  have there : isThere e' = true := by
    refine List.any_eq_true.mpr ⟨_, Contents.mem_of_table? finds, ?_⟩
    exact beq_iff_eq.mpr isName
  have selected := select_of_filter isTableAfter finds only
  unfold load
  rw [there, selected]
  rfl

/-- **The digest that is stored is the digest that is found.** Where references are not enforced and
the table of the record is the one that is made for it, a digest that is stored is read back. No other
table is touched. -/
theorem load_of_save (sound : Sound e.contents) (free : e.enforced = false)
    (stored : save stamp digest e = (.ok (), e')) :
    load e' = .ok (some digest) ∧ Sound e'.contents ∧
      ∀ p : StoredTable → Bool, (∀ t, t.isNamed tableName = true → p t = false) →
        e'.contents.tables.filter p = e.contents.tables.filter p := by
  obtain ⟨created, n, isCreated, inserted⟩ := save_eq_ok stored
  obtain ⟨c, creates, rfl⟩ := Option.map_eq_some_iff.mp isCreated
  obtain ⟨t, found⟩ : ∃ t, c.table? tableName = some t :=
    Option.isSome_iff_exists.mp (Contents.isSome_table?_of_createTable creates)
  obtain ⟨soundC, sameC⟩ := sound.createTable creates
  have named := Contents.isNamed_of_table? found
  have isTable := soundC t (Contents.mem_of_table? found) named
  have isName : t.name = tableName := congrArg Table.name isTable
  have columns : t.definition.columns = table.columns := congrArg Table.columns isTable
  have effect : ∃ rowid displaced, e'.contents = c.modify tableName
      (fun _ => (t.erase displaced).put ⟨rowid, rowOf digest stamp⟩) ∧
        ∀ r ∈ t.rows, isRecord r = true → r.rowid ∈ displaced := by
    unfold Engine.insert Engine.change at inserted
    rw [free] at inserted
    rcases insert_rowOf digest stamp columns found with
      ⟨-, refused⟩ | ⟨rowid, displaced, done, gone⟩
    · rw [rowOf] at refused
      simp only [refused] at inserted
      cases inserted
    · rw [rowOf] at done
      simp only [done] at inserted
      cases inserted
      exact ⟨rowid, displaced, by rw [isName]; rfl, gone⟩
  obtain ⟨rowid, displaced, written, gone⟩ := effect
  refine ⟨load_of_contents isTable found gone written, ?_, fun p others => ?_⟩
  · intro u member namedU
    rw [written] at member
    obtain ⟨before, memberC, rfl⟩ := List.mem_map.mp member
    split at namedU
    · rename_i isNamed
      rw [if_pos isNamed]
      exact isTable
    · contradiction
  · have sameOthers : e'.contents.tables.filter p = c.tables.filter p := by
      rw [written]
      refine Contents.filter_modify fun u isNamed => ⟨others u isNamed, others _ ?_⟩
      exact named
    exact sameOthers.trans (sameC p others)

end DigestRecord

/-! ## Databases without a record -/

namespace Migration

open DigestRecord

/-- A database of no tables has none of the user. -/
theorem userTables_empty : userTables Contents.empty = [] := by
  rw [userTables, Contents.tableNames]
  exact congrArg (List.filter _) List.mergeSort_nil

/-- The only statement creates a table. -/
theorem runAll_createTable {e : Engine} {t : Table} {c : Contents}
    (creates : e.contents.createTable t = some c) :
    runAll [.createTable t] e = .ok { e with contents := c } := by
  have defines : e.define (.createTable t) = some { e with contents := c } :=
    congrArg (Option.map _) creates
  exact runAll_cons_of_define [] defines

/-- A database without a record is brought to a table if the digest finds room. -/
theorem exists_migrate_toTable {e : Engine} {t : Table} {c c' : Contents} {u : StoredTable}
    (noIndex : t.columns.filter (·.needsIndex) = []) (idle : e.saved = none)
    (unrecorded : isThere e = false)
    (ran : runAll ((userTables e.contents).map .dropTable ++ [.createTable t]) (begun e) =
      .ok { begun e with contents := c })
    (ensures : c.createTable table = some c') (columns : u.definition.columns = table.columns)
    (found : c'.table? tableName = some u) (room : u.nextRowid?.isSome = true) (stamp : String) :
    ∃ report filled,
      (toTable t).migrate stamp e =
        (.ok report, Engine.enforce { filled with saved := none } true) ∧
      report.decision = .rebuild ∧
      save stamp (toTable t).schema.digest { begun e with contents := c } = (.ok (), filled) ∧
      ∀ v' ∈ filled.contents.tables, ∃ v ∈ c'.tables, v'.definition = v.definition := by
  have noPlace : u.definition.rowidPlace? = none := by rw [Table.rowidPlace?, columns]; rfl
  have hasRoom (row : Row) : u.rowidOf? row ≠ none := by
    rw [StoredTable.rowidOf?, noPlace]
    exact Option.isSome_iff_ne_none.mp room
  obtain ⟨filled, saved, defined⟩ := exists_save (toTable t).schema.digest stamp
    (e := { begun e with contents := c }) rfl ensures columns found (hasRoom _)
  have planned := plan_toTable noIndex unrecorded
  exact ⟨_, filled, migrate_of_saved planned rfl idle ran saved, rfl, saved, defined⟩

/-- A database without a record is brought to a table if no table or index goes by the record's
name. -/
theorem exists_migrate_of_free {e : Engine} {t : Table} {c : Contents}
    (noIndex : t.columns.filter (·.needsIndex) = []) (idle : e.saved = none)
    (unrecorded : isThere e = false)
    (ran : runAll ((userTables e.contents).map .dropTable ++ [.createTable t]) (begun e) =
      .ok { begun e with contents := c })
    (free : c.holds tableName = false) (stamp : String) :
    ∃ report filled,
      (toTable t).migrate stamp e =
        (.ok report, Engine.enforce { filled with saved := none } true) ∧
      report.decision = .rebuild ∧
      save stamp (toTable t).schema.digest { begun e with contents := c } = (.ok (), filled) := by
  obtain ⟨noTable, notIndex⟩ := Bool.or_eq_false_iff.mp free
  have absent : c.table? tableName = none := Option.not_isSome_iff_eq_none.mp (by simp [noTable])
  have ensures : c.createTable table = some ⟨c.tables ++ [.new table]⟩ := by
    have allowed : (Table.isReserved tableName || !table.isReadable) = false := by decide +kernel
    have creatable : table.isCreatable = true := by decide +kernel
    have isName : table.name = tableName := rfl
    simp [Contents.createTable, isName, allowed, absent, notIndex, creatable]
  have found : Contents.table? ⟨c.tables ++ [.new table]⟩ tableName = some (.new table) := by
    have search : c.tables.find? (·.isNamed tableName) = none := absent
    have named : (StoredTable.new table).isNamed tableName = true := Text.sameName_refl tableName
    simp [Contents.table?, List.find?_append, search, named]
  obtain ⟨report, filled, done, rebuilds, saved, -⟩ :=
    exists_migrate_toTable noIndex idle unrecorded ran ensures rfl found (by decide +kernel) stamp
  exact ⟨report, filled, done, rebuilds, saved⟩

end Migration

end Tabula
