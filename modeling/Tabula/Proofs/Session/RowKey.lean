import Tabula.Proofs.Engine.Equality
import Tabula.Proofs.Query.Surface
import Tabula.Proofs.Session.Reopening
import Tabula.Session.Records

/-! # Rows by their keys

The name by which single rows are addressed is that of the key, and without a key it is the engine's
name for the position of a row, unless a column goes by it. As long as none does, no two rows answer to
one key, whatever was done to the database since it was new, migrations among it
(`Tabula.Migration.arises_migrate`), and an update or a deletion by key changes one row at most
(`Tabula.Model.rows_of_key`). A column that takes the name is what a table without a
key is then addressed by (`Tabula.Model.rows_of_key_journal`).
-/

namespace Tabula

/-! ## Connections since they were new -/

namespace Engine

/-- The connection comes from one to a new database by statements and transactions. -/
inductive Arises : Engine → Prop where
  | new (enforced : Bool) : Arises (.new enforced)
  | defined {e e' : Engine} {s : SchemaStatement} (defines : e.define s = some e')
    (before : Arises e) : Arises e'
  | changed {e : Engine} (s : RowStatement) (before : Arises e) : Arises (e.perform s).2
  | began {e e' : Engine} (begins : e.begin? = some e') (before : Arises e) : Arises e'
  | committed {e e' : Engine} (commits : e.commit? = some e') (before : Arises e) : Arises e'
  | undone {e : Engine} (before : Arises e) : Arises e.rollback
  | enforcing {e : Engine} (on : Bool) (before : Arises e) : Arises (e.enforce on)

variable {e e' : Engine} {s : RowStatement}

/-- What holds of no rows and is kept by every statement holds of every database, also when the open
transaction is undone. -/
theorem Arises.throughout {P : Contents → Prop} (atFirst : P .empty)
    (define : ∀ {c c' : Contents} {s : SchemaStatement}, P c → c.define s = some c' → P c')
    (effect : ∀ {enforced : Bool} {c c' : Contents} {s : RowStatement}, P c →
      Contents.left? (s.effect enforced c) = some c' → P c')
    (arises : Arises e) : Throughout P e := by
  induction arises with
  | new enforced => exact .idle atFirst rfl
  | @defined e e' s defines before ih =>
      obtain ⟨c, done, rfl⟩ := Option.map_eq_some_iff.mp defines
      exact ⟨define ih.1 done, ih.2⟩
  | @changed e s before ih =>
      rw [perform_eq_change, change]
      cases ended : s.effect e.enforced e.contents with
      | done after changed last => exact ⟨effect ih.1 (congrArg Contents.left? ended), ih.2⟩
      | refused after => exact ⟨effect ih.1 (congrArg Contents.left? ended), ih.2⟩
      | reverted => exact ih.rollback
  | began begins before ih => exact ih.begin? begins
  | committed commits before ih => exact ih.commit? commits
  | undone before ih => exact ih.rollback
  | enforcing on before ih => exact ih.enforce on

/-- **In every database the rows of each table are apart**, also when the open transaction is undone. -/
theorem Arises.keyed (arises : Arises e) : Throughout Contents.Keyed e :=
  arises.throughout Contents.keyed_empty (fun keyed done => keyed.define done)
    fun keyed left => (Contents.keepsKeys_effect left).keyed keyed

end Engine

namespace Migration

open Engine

variable {e e' : Engine}

private theorem arises_runAll {statements : List SchemaStatement}
    (ran : runAll statements e = .ok e') (before : Arises e) : Arises e' := by
  induction statements generalizing e with
  | nil =>
      obtain rfl := Except.ok.inj ran
      exact before
  | cons s rest ih =>
      rw [runAll] at ran
      split at ran
      · rename_i next defines
        exact ih ran (.defined defines before)
      · cases ran

private theorem arises_save (stamp digest : String) (before : Arises e) :
    Arises (DigestRecord.save stamp digest e).2 := by
  unfold DigestRecord.save DigestRecord.ensure
  cases defines : e.define (.createTable DigestRecord.table) with
  | none => exact before
  | some next =>
      rw [Answer.snd_ofChange]
      exact .changed (.insert _) (.defined defines before)

/-- A migration, done or refused, is statements and a transaction. -/
theorem arises_migrate (m : Migration) (stamp : String) (before : Arises e) :
    Arises (m.migrate stamp e).2 := by
  have applied (statements : List SchemaStatement) {e : Engine} (before : Arises e) :
      Arises (m.apply stamp statements e).2 := by
    unfold apply
    split
    · exact before
    · rename_i begun begins
      have within : Arises begun := .began begins before
      split
      · exact .undone within
      · rename_i defined ran
        have saves := arises_save stamp m.schema.digest (arises_runAll ran within)
        split
        · rename_i saved
          rw [saved] at saves
          exact .undone saves
        · rename_i saved
          rw [saved] at saves
          split
          · rename_i commits
            exact .committed commits saves
          · exact saves
  unfold migrate
  split
  · exact before
  · split
    · exact .enforcing _ (applied _ (.enforcing false before))
    · exact before

end Migration

/-! ## What the name of the key stands for -/

namespace Table

variable {t : Table}

/-- No column goes by the engine's name for the position of a row. -/
def SparesRowid (t : Table) : Prop :=
  ∀ c ∈ t.columns, Text.sameName c.name rowidName = false

instance (t : Table) : Decidable t.SparesRowid :=
  inferInstanceAs (Decidable (∀ c ∈ t.columns, _))

/-- The name of the position means the position just if no column has that name. -/
theorem cell?_rowidName : t.cell? rowidName = some .rowid ↔ t.SparesRowid := by
  constructor
  · intro stands c member
    by_contra named
    obtain ⟨d, found⟩ : ∃ d, t.find? rowidName = some d :=
      Option.isSome_iff_exists.mp (List.find?_isSome.mpr ⟨c, member, Bool.eq_true_of_not_eq_false named⟩)
    obtain ⟨place, index⟩ : ∃ place, t.index? rowidName = some place := by
      refine Option.isSome_iff_exists.mp (List.findIdx?_isSome.trans ?_)
      exact List.any_eq_true.mpr ⟨c, member, Bool.eq_true_of_not_eq_false named⟩
    rw [cell?, found, index] at stands
    cases stands
  · intro spares
    have notFound : t.find? rowidName = none :=
      List.find?_eq_none.mpr fun c member => Bool.eq_false_iff.mp (spares c member)
    have isName : rowidNames.any (Text.sameName rowidName) = true := by decide +kernel
    rw [cell?, notFound]
    cases t.index? rowidName <;> exact if_pos isName

private theorem keyName_of_not_hasKey (keyless : t.hasKey = false) : t.keyName = rowidName := by
  have notFound : t.keyColumn? = none :=
    List.find?_eq_none.mpr fun c member isKey =>
      Bool.false_ne_true (keyless.symm.trans (List.any_eq_true.mpr ⟨c, member, isKey⟩))
  rw [keyName, notFound]

/-- A key has a place, and its name stands for the column there. -/
theorem exists_keyCell (faultless : t.faults = []) (keyed : t.hasKey = true) :
    ∃ place c, t.columns[place]? = some c ∧ c.primaryKey = true ∧ t.keyIndex? = some place ∧
      t.keyColumn? = some c ∧ t.keyName = c.name ∧ t.cell? t.keyName = some (.column place c) := by
  obtain ⟨place, index⟩ : ∃ place, t.keyIndex? = some place :=
    Option.isSome_iff_exists.mp (List.findIdx?_isSome.trans keyed)
  obtain ⟨inside, holds, before⟩ := List.findIdx?_eq_some_iff_getElem.mp index
  have isColumn : t.columns[place]? = some t.columns[place] := List.getElem?_eq_getElem inside
  have found : t.keyColumn? = some t.columns[place] := by
    refine List.find?_eq_some_iff_getElem.mpr ⟨holds, place, inside, rfl, fun j earlier => ?_⟩
    exact Bool.not_eq_true' _ ▸ Bool.eq_false_of_not_eq_true (before j earlier)
  have named : t.keyName = t.columns[place].name := by
    rw [keyName, found]
  obtain ⟨findsColumn, findsIndex⟩ :=
    find?_sameName Column.name (nodup_lowerNames faultless) isColumn
  have byName : t.find? t.columns[place].name = some t.columns[place] := findsColumn
  have byIndex : t.index? t.columns[place].name = some place := findsIndex
  refine ⟨place, _, isColumn, holds, index, found, named, ?_⟩
  rw [named, cell?, byName, byIndex]

/-- A key that is the position of its row is the column of the position. -/
theorem rowidPlace?_of_keyIndex? {place : Nat} {c : Column} (index : t.keyIndex? = some place)
    (isColumn : t.columns[place]? = some c) (holds : isRowid c = true) :
    t.rowidPlace? = some place := by
  obtain ⟨inside, -, before⟩ := List.findIdx?_eq_some_iff_getElem.mp index
  obtain ⟨_, rfl⟩ := List.getElem?_eq_some_iff.mp isColumn
  refine List.findIdx?_eq_some_iff_getElem.mpr ⟨inside, holds, fun j earlier isRowid => ?_⟩
  exact before j earlier (Bool.and_eq_true_iff.mp isRowid).1

/-- The name of the key stands for the key, or for the position of the row. -/
def IsAddressed (t : Table) : Prop :=
  t.hasKey = true ∨ t.SparesRowid

end Table

/-! ## Rows of one key -/

namespace Condition

variable {t : Table} {r q : StoredRow} {v : Value}

private theorem truth_eq_iff {name : String} {cell : Table.Cell}
    (stands : t.cell? name = some cell) : (Condition.compare name .eq [v]).truth t r = some true ↔
      (r.cell cell).same cell.collation (cell.storage.operand v.bound) = true := by
  rw [truth, stands]
  simp only [Comparison.truth, List.map_cons, List.map_nil, Value.orderedAs, Value.same,
    List.getD_cons_zero]
  cases (r.cell cell).compare? cell.collation (cell.storage.operand v.bound) with
  | none => constructor <;> intro unknown <;> cases unknown
  | some o => simp

/-- Two rows of one key are not apart. -/
theorem not_apart_of_truth (faultless : t.faults = []) (addressed : t.IsAddressed)
    (placedR : t.Places r) (placedQ : t.Places q)
    (ofR : (Condition.compare t.keyName .eq [v]).truth t r = some true)
    (ofQ : (Condition.compare t.keyName .eq [v]).truth t q = some true) : ¬t.Apart r q := by
  intro apart
  have positions {c : Collation}
      (same : (Value.integer r.rowid).same c (.integer q.rowid) = true) : False := by
    have values := (Value.same_eq_true_iff.mp same).2.2
    exact apart.rowid (Int64.toInt_inj.mp (compare_eq_iff_eq.mp values))
  cases keyed : t.hasKey with
  | false =>
      have stands : t.cell? t.keyName = some .rowid := by
        rw [Table.keyName_of_not_hasKey keyed, Table.cell?_rowidName]
        exact addressed.resolve_left (Bool.eq_false_iff.mp keyed)
      exact positions <| Value.same_of_same (StorageType.not_isNaN_operand _ _)
        ((truth_eq_iff stands).mp ofR) ((truth_eq_iff stands).mp ofQ)
  | true =>
      obtain ⟨place, c, isColumn, isKey, index, -, -, stands⟩ := Table.exists_keyCell faultless keyed
      have number := StorageType.not_isNaN_operand c.storage v
      have sameR := (truth_eq_iff stands).mp ofR
      have sameQ := (truth_eq_iff stands).mp ofQ
      have same := Value.same_of_same number sameR sameQ
      cases holds : Table.isRowid c with
      | false =>
          exact apart.key place c isColumn isKey holds ⟨same, Value.same_of_same number sameQ sameR⟩
      | true =>
          have isPlace := Table.rowidPlace?_of_keyIndex? index isColumn holds
          rw [StoredRow.cell, StoredRow.cell, placedR place isPlace, placedQ place isPlace] at same
          exact positions same

end Condition

/-- Of rows of which each two are related, only one meets what no two related rows meet. -/
theorem length_filter_le_one {α : Type} {R : α → α → Prop} {p : α → Bool} {xs : List α}
    (pairwise : xs.Pairwise R)
    (single : ∀ a ∈ xs, ∀ b ∈ xs, p a = true → p b = true → ¬R a b) : (xs.filter p).length ≤ 1 := by
  have related := pairwise.filter p
  cases filtered : xs.filter p with
  | nil => exact Nat.zero_le 1
  | cons a rest =>
      cases rest with
      | nil => exact Nat.le_refl 1
      | cons b rest =>
          rw [filtered] at related
          have isA : a ∈ xs.filter p := filtered ▸ List.mem_cons_self
          have isB : b ∈ xs.filter p := filtered ▸ List.mem_cons_of_mem a List.mem_cons_self
          obtain ⟨memberA, meetsA⟩ := List.mem_filter.mp isA
          obtain ⟨memberB, meetsB⟩ := List.mem_filter.mp isB
          have relatedAB := (List.pairwise_cons.mp related).1 b List.mem_cons_self
          exact absurd relatedAB (single a memberA b memberB meetsA meetsB)

/-- One row at most meets conditions one of which is that of a key. -/
theorem StoredTable.IsKeyed.length_filter_le_one {t : StoredTable} {cs : List Condition} {v : Value}
    (keyed : t.IsKeyed) (faultless : t.definition.faults = [])
    (addressed : t.definition.IsAddressed) (byKey : .compare t.definition.keyName .eq [v] ∈ cs) :
    (t.filter cs).length ≤ 1 := by
  refine Tabula.length_filter_le_one keyed.apart fun r isRow q isRow' meetsR meetsQ => ?_
  have ofKey {r : StoredRow} (meets : t.meets cs r = true) :
      (Condition.compare t.definition.keyName .eq [v]).truth t.definition r = some true :=
    eq_of_beq (List.all_eq_true.mp meets _ byKey)
  exact Condition.not_apart_of_truth faultless addressed (keyed.placed r isRow)
    (keyed.placed q isRow') (ofKey meetsR) (ofKey meetsQ)

/-! ## Changes of one row -/

namespace Contents

variable {c c' : Contents} {enforced : Bool} {n : Nat} {last : Option Int64}

/-- An update changes no more rows than it goes through. -/
theorem changed_run {policy : ConflictPolicy} {table : String}
    {assignments : List (String × Value)} {selves : List Int64} {p q : Progress}
    (ran : Progress.run (updateRow enforced policy table assignments) selves p = .ok q) :
    q.changed ≤ p.changed + selves.length := by
  induction selves generalizing p with
  | nil =>
      obtain rfl := Except.ok.inj ran
      exact Nat.le_refl _
  | cons self selves ih =>
      rw [Progress.run] at ran
      split at ran
      · rename_i next done
        have later := ih ran
        have once : next.changed ≤ p.changed + 1 := by
          rcases updateRow_eq_ok done with rfl | ⟨_, _, _, _, _, _, _, -, -, -, -, -, -, rfl⟩
          · exact Nat.le_succ _
          · exact Nat.le_refl _
        rw [List.length_cons]
        omega
      · cases ran

/-- An update changes no more rows than meet its conditions. -/
theorem changed_update {s : UpdateStatement} (done : c.update enforced s = .done c' n last) :
    ∃ t, c.table? s.table = some t ∧ n ≤ (t.filter s.conditions).length := by
  unfold update at done
  split at done
  · cases done
  · rename_i t found
    split at done
    · cases done
    · unfold conclude at done
      split at done
      · rename_i p ran
        split at done
        · cases done
        · obtain ⟨-, rfl, -⟩ := Effect.done.inj done
          have changed := changed_run ran
          rw [List.length_map] at changed
          exact ⟨t, found, changed.trans (Nat.le_of_eq (Nat.zero_add _))⟩
      · split at done <;> cases done
      · cases done
      · cases done
      · cases done

/-- A deletion removes the rows that meet its conditions. -/
theorem changed_delete {s : DeleteStatement} (done : c.delete enforced s = .done c' n last) :
    ∃ t, c.table? s.table = some t ∧ n = (t.filter s.conditions).length := by
  unfold delete at done
  split at done
  · cases done
  · rename_i t found
    split at done
    · cases done
    · dsimp only at done
      split at done
      · cases done
      · split at done
        · cases done
        · obtain ⟨-, rfl, -⟩ := Effect.done.inj done
          exact ⟨t, found, rfl⟩

end Contents

/-- A statement that is done answers the number of its rows. -/
theorem Answer.exists_done {f : Bool → Contents → Effect} {e e' : Engine} {n : Nat}
    (done : Answer.ofChange (·.1) (e.change f) = (.ok n, e')) :
    ∃ c last, f e.enforced e.contents = .done c n last := by
  unfold Engine.change at done
  split at done
  · rename_i c changed last ended
    obtain rfl := Except.ok.inj (Prod.mk.inj done).1
    exact ⟨c, last, ended⟩
  · cases done
  · cases done

namespace Model

variable {m : Model} {e : Engine} {t : StoredTable} {v : Value}

private theorem keyName_target (m : Model) :
    (Surface.ofTable m.table).target.name = m.table.keyName := by
  rw [Surface.ofTable]
  cases keyed : m.table.hasKey with
  | true => rfl
  | false => exact (Table.keyName_of_not_hasKey keyed).symm

/-- A statement that is about a key is about one row at most. -/
theorem length_filter_of_key {targets : List (Target m)} (faultless : m.table.faults = [])
    (addressed : m.table.IsAddressed) (arises : e.Arises)
    (found : e.contents.table? m.table.name = some t) (isTable : t.definition = m.table)
    (byKey : .key v ∈ targets) : (t.filter (targets.map (·.condition))).length ≤ 1 := by
  have keyed := arises.keyed.1 _ t found
  have isCondition : m.keyCondition v ∈ targets.map (·.condition) :=
    List.mem_map_of_mem (f := Target.condition) byKey
  rw [← isTable] at faultless addressed
  rw [keyCondition, ← isTable] at isCondition
  exact keyed.length_filter_le_one faultless addressed isCondition

/-- A change that counts rows of the table among those that meet the conditions counts one at most if
the conditions are about a key. -/
theorem answer_of_key {targets : List (Target m)} (faultless : m.table.faults = [])
    (addressed : m.table.IsAddressed) (arises : e.Arises)
    (found : e.contents.table? m.table.name = some t) (isTable : t.definition = m.table)
    (byKey : .key v ∈ targets) {f : Bool → Contents → Effect}
    (counts : ∀ {enforced : Bool} {c' : Contents} {n : Nat} {last : Option Int64},
      f enforced e.contents = .done c' n last → ∃ t', e.contents.table? m.table.name = some t' ∧
        n ≤ (t'.filter (targets.map (·.condition))).length) :
    (t.filter (targets.map (·.condition))).length ≤ 1 ∧
      ∀ n e', Answer.ofChange (·.1) (e.change f) = (.ok n, e') → n ≤ 1 := by
  have single := length_filter_of_key faultless addressed arises found isTable byKey
  refine ⟨single, fun n e' done => ?_⟩
  obtain ⟨c, last, ended⟩ := Answer.exists_done done
  obtain ⟨t', found', most⟩ := counts ended
  obtain rfl := Option.some.inj (found.symm.trans found')
  exact most.trans single

/-- An update by a key changes one row at most. -/
theorem changed_of_key {u : Update m} {s : UpdateStatement} (faultless : m.table.faults = [])
    (addressed : m.table.IsAddressed) (arises : e.Arises)
    (found : e.contents.table? m.table.name = some t) (isTable : t.definition = m.table)
    (byKey : .key v ∈ u.targets) (built : u.statement? = some s) :
    (t.filter s.conditions).length ≤ 1 ∧
      ∀ n e', Records.update s e = (.ok n, e') → n ≤ 1 := by
  have ofTable : s.table = m.table.name ∧ s.conditions = u.targets.map (·.condition) := by
    unfold Update.statement? at built
    split at built
    · rename_i isTargets
      obtain rfl := Option.some.inj built
      exact ⟨rfl, rfl⟩
    · cases built
  rw [ofTable.2]
  refine answer_of_key faultless addressed arises found isTable byKey fun ended => ?_
  rw [← ofTable.1, ← ofTable.2]
  exact Contents.changed_update ended

/-- A deletion by a key removes one row at most. -/
theorem removed_of_key {d : Deletion m} {s : DeleteStatement} (faultless : m.table.faults = [])
    (addressed : m.table.IsAddressed) (arises : e.Arises)
    (found : e.contents.table? m.table.name = some t) (isTable : t.definition = m.table)
    (byKey : .key v ∈ d.targets) (built : d.statement? = some s) :
    (t.filter s.conditions).length ≤ 1 ∧
      ∀ n e', Records.delete s e = (.ok n, e') → n ≤ 1 := by
  have ofTable : s.table = m.table.name ∧ s.conditions = d.targets.map (·.condition) := by
    unfold Deletion.statement? at built
    split at built
    · obtain rfl := Option.some.inj built
      exact ⟨rfl, rfl⟩
    · cases built
  rw [ofTable.2]
  refine answer_of_key faultless addressed arises found isTable byKey fun ended => ?_
  rw [← ofTable.1, ← ofTable.2]
  obtain ⟨t', found', most⟩ := Contents.changed_delete ended
  exact ⟨t', found', most.le⟩

/-- **One row for a key.** The name by which rows are addressed is the same for surfaces and for
statements by key. It stands for the key column, or without one for the position of the row as long as
no column goes by its name. Then, in any database that arose with the table, one row at most meets
the conditions of an update or a deletion by key, and one at most is changed or removed. -/
theorem rows_of_key (m : Model) (faultless : m.table.faults = []) :
    ((Surface.ofTable m.table).target.name = m.table.keyName ∧
      ∀ v, m.keyCondition v = .compare m.table.keyName .eq [v] ∧
        (Surface.ofTable m.table).keyCondition v = m.keyCondition v) ∧
    ((∃ place c, m.table.columns[place]? = some c ∧ c.primaryKey = true ∧
        m.table.keyName = c.name ∧ m.table.cell? m.table.keyName = some (.column place c)) ∨
      m.table.hasKey = false ∧ m.table.keyName = "_rowid_" ∧
        (m.table.cell? m.table.keyName = some .rowid ↔
          ∀ c ∈ m.table.columns, Text.sameName c.name "_rowid_" = false)) ∧
    ((m.table.hasKey = true ∨ ∀ c ∈ m.table.columns, Text.sameName c.name "_rowid_" = false) →
      ∀ e t, Engine.Arises e → e.contents.table? m.table.name = some t → t.definition = m.table →
        ∀ v,
        (∀ u : Update m, .key v ∈ u.targets → ∀ s ∈ u.statement?,
          (t.filter s.conditions).length ≤ 1 ∧
            ∀ n e', Records.update s e = (.ok n, e') → n ≤ 1) ∧
        (∀ d : Deletion m, .key v ∈ d.targets → ∀ s ∈ d.statement?,
          (t.filter s.conditions).length ≤ 1 ∧
            ∀ n e', Records.delete s e = (.ok n, e') → n ≤ 1)) := by
  refine ⟨⟨m.keyName_target, fun v => ⟨rfl, ?_⟩⟩, ?_, ?_⟩
  · rw [Surface.keyCondition, keyName_target]
    rfl
  · cases keyed : m.table.hasKey with
    | true =>
        obtain ⟨place, c, isColumn, isKey, -, -, named, stands⟩ :=
          Table.exists_keyCell faultless keyed
        exact Or.inl ⟨place, c, isColumn, isKey, named, stands⟩
    | false =>
        have named := Table.keyName_of_not_hasKey keyed
        refine Or.inr ⟨rfl, named, ?_⟩
        rw [named]
        exact Table.cell?_rowidName
  · intro addressed e t arises found isTable v
    exact ⟨fun u byKey s built =>
        changed_of_key faultless addressed arises found isTable byKey built,
      fun d byKey s built =>
        removed_of_key faultless addressed arises found isTable byKey built⟩

/-- Records without a key, whose column of numbers has the name. -/
def journal (number : String) : Model where
  table :=
    { name := "Journal", model := "Journal"
      columns := [.plain number .integer, .plain "entry" .text], associations := [] }
  record := [⟨number, .int .i64, false⟩, ⟨"entry", .text, false⟩]
  names := rfl

/-- A database with such records, all of the number seven, one after the other. -/
def journaling (number : String) (entries : List String) : Engine :=
  { Engine.new true with
    contents := ⟨[{ StoredTable.new (journal number).table with
      rows := entries.mapIdx fun i entry =>
        ⟨.ofNat (i + 1), [.integer 7, .text entry]⟩ }]⟩ }

/-- Inserts a record of the number seven. -/
def journalEntry (number entry : String) : RowStatement :=
  .insert ⟨.unset, "Journal", [number, "entry"], [[.integer 7, .text entry]]⟩

/-- The journal of two entries arises by creating its table and inserting them. -/
theorem arises_journaling {number : String}
    (creates : (Engine.new true).define (.createTable (journal number).table) =
      some (journaling number []))
    (first : ((journaling number []).perform (journalEntry number "first")).2 =
      journaling number ["first"])
    (second : ((journaling number ["first"]).perform (journalEntry number "second")).2 =
      journaling number ["first", "second"]) :
    (journaling number ["first", "second"]).Arises :=
  second ▸ .changed _ (first ▸ .changed _ (.defined creates (.new true)))

/-- The deletion of the row of a key. -/
def deleteByKey (m : Model) (v : Value) : DeleteStatement :=
  ⟨m.table.name, [m.keyCondition v]⟩

/-- Without a key the rows have their positions for it. -/
theorem rows_of_key_number :
    let m := journal "number"
    let e := journaling "number" ["first", "second"]
    m.table.faults = [] ∧ m.keyCondition (.integer 2) = .compare "_rowid_" .eq [.integer 2] ∧
      (Records.delete (m.deleteByKey (.integer 2)) e).1 = .ok 1 ∧
      ∀ v n e', Records.delete (m.deleteByKey v) e = (.ok n, e') → n ≤ 1 := by
  intro m e
  have faultless : m.table.faults = [] := by decide +kernel
  have arises : e.Arises :=
    arises_journaling (by decide +kernel) (by decide +kernel) (by decide +kernel)
  have there : (e.contents.table? m.table.name).map (·.definition) = some m.table := by
    decide +kernel
  obtain ⟨t, found, isTable⟩ := Option.map_eq_some_iff.mp there
  refine ⟨faultless, rfl, by decide +kernel, fun v n e' done => ?_⟩
  have ofKey := (rows_of_key m faultless).2.2 (Or.inr (by decide +kernel)) _ t arises found
    isTable v
  exact (ofKey.2 ⟨false, [.key v]⟩ (List.mem_singleton.mpr rfl) _ rfl).2 n e' done

/-- A column takes the name that stands for the position of a row. The table is without a fault and
has no key, and both of its rows are removed by one key. -/
theorem rows_of_key_journal :
    let m := journal "_rowid_"
    let e := journaling "_rowid_" ["first", "second"]
    m.table.faults = [] ∧ m.table.hasKey = false ∧ m.table.keyName = "_rowid_" ∧
      m.table.cell? m.table.keyName = some (.column 0 (.plain "_rowid_" .integer)) ∧ e.Arises ∧
      (Deletion.aim {} (.key (.integer 7)) : Deletion m).statement? =
        some (m.deleteByKey (.integer 7)) ∧
      (Records.delete (m.deleteByKey (.integer 7)) e).1 = .ok 2 := by
  intro m e
  have arises : e.Arises :=
    arises_journaling (by decide +kernel) (by decide +kernel) (by decide +kernel)
  refine ⟨by decide +kernel, by decide +kernel, by decide +kernel, by decide +kernel, arises, ?_,
    by decide +kernel⟩
  unfold Deletion.statement?
  exact if_pos rfl

end Model

end Tabula
