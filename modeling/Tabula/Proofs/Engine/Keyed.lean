import Tabula.Proofs.Engine.Acceptance
import Tabula.Proofs.Engine.Creation

/-! # Keys of rows

No two rows of a table have one position, and none have one key: every statement keeps this, whatever
it writes, lets go and refuses (`Tabula.Contents.keepsKeys_effect`, `Tabula.Contents.Keyed.define`).
-/

namespace Tabula

/-- Each two rows are apart, and each holds its position where a column does. -/
structure StoredTable.IsKeyed (t : StoredTable) : Prop where
  placed : ∀ r ∈ t.rows, t.definition.Places r
  apart : t.rows.Pairwise t.definition.Apart

namespace StoredTable

variable {t : StoredTable} {row : StoredRow} {self : Option Int64}

/-- Rows that go break no key. -/
theorem IsKeyed.erase (keyed : t.IsKeyed) (gone : List Int64) : (t.erase gone).IsKeyed :=
  ⟨fun r member => keyed.placed r (List.mem_filter.mp member).1, keyed.apart.filter _⟩

private theorem IsKeyed.of_rows {u : StoredTable} (keyed : t.IsKeyed)
    (sameDefinition : u.definition = t.definition) (sameRows : u.rows = t.rows) : u.IsKeyed := by
  constructor
  · rw [sameRows, sameDefinition]
    exact keyed.placed
  · rw [sameRows, sameDefinition]
    exact keyed.apart

/-- A row that clashes with none takes the place of its old version. -/
theorem IsKeyed.put (keyed : t.IsKeyed) (placed : t.definition.Places row)
    (admitted : t.admits self row = true) : ((t.erase self.toList).put row).IsKeyed := by
  have others : ∀ r ∈ (t.erase self.toList).rows, t.definition.Apart row r := by
    intro r isLeft
    obtain ⟨member, stays⟩ := List.mem_filter.mp isLeft
    refine apart_of_admits admitted member fun isSelf => ?_
    rw [← isSelf] at stays
    simp at stays
  constructor
  · intro r member
    rcases mem_place member with rfl | isLeft
    · exact placed
    · exact (keyed.erase _).placed r isLeft
  · exact pairwise_place Table.Apart.symm (keyed.erase _).apart others

private theorem places_of_movedTo {rowid moved : Int64} {values : Row}
    (isMoved : t.movedTo? rowid values = some moved) : t.definition.Places ⟨moved, values⟩ := by
  intro place isPlace
  rw [movedTo?, isPlace, Option.map_some] at isMoved
  split at isMoved
  · contradiction
  · rename_i isInteger
    obtain rfl := Option.some.inj isMoved
    exact Option.some.inj isInteger
  · cases isMoved

private theorem places_withRowid {values : Row}
    (complete : values.length = t.definition.columns.length)
    (rowid : Int64) : t.definition.Places ⟨rowid, t.withRowid rowid values⟩ := by
  intro place isPlace
  obtain ⟨c, isColumn, -⟩ := Table.exists_of_rowidPlace? isPlace
  have inside : place < values.length := complete ▸ (List.getElem?_eq_some_iff.mp isColumn).1
  rw [withRowid, isPlace]
  simp [List.getD_eq_getElem?_getD, inside]

end StoredTable

namespace Contents

variable {c c' c'' : Contents} {n m : String} {t u : StoredTable} {enforced : Bool}

/-! ## Finding tables -/

/-- A table is found as before where only the tables of a name become others of their names. -/
theorem table?_modify {f : StoredTable → StoredTable}
    (named : ∀ u, u.isNamed m = true → (f u).isNamed n = u.isNamed n) :
    (c.modify m f).table? n = (c.table? n).map fun u => if u.isNamed m then f u else u := by
  have sameNames : ((·.isNamed n) ∘ fun u => if u.isNamed m then f u else u) =
      fun u : StoredTable => u.isNamed n := by
    funext u
    by_cases isNamed : u.isNamed m = true
    · simp only [Function.comp_apply, isNamed, if_true, named u isNamed]
    · simp only [Function.comp_apply, isNamed, Bool.false_eq_true, if_false]
  rw [table?, modify, List.find?_map, sameNames]
  rfl

/-- A table of the name takes the place of the one that was found. -/
theorem table?_modify_const (found : c.table? n = some t) (named : u.isNamed n = true) :
    (c.modify n fun _ => u).table? n = some u := by
  rw [table?_modify fun v isNamed => named.trans isNamed.symm, found, Option.map_some,
    if_pos (isNamed_of_table? found)]

/-- A table is found by either spelling of its name. -/
theorem table?_congr (named : t.isNamed n = true) : c.table? t.name = c.table? n := by
  have sameTables : (fun u : StoredTable => u.isNamed t.name) = fun u => u.isNamed n := by
    funext u
    rw [StoredTable.isNamed, StoredTable.isNamed, Text.sameName_comm, Text.sameName_comm u.name]
    exact Text.sameName_congr named u.name
  rw [table?, sameTables]
  rfl

/-- A table is found by its own name as well. -/
theorem table?_name (found : c.table? n = some t) : c.table? t.name = some t :=
  (table?_congr (isNamed_of_table? found)).trans found

/-- Where rows go, each table loses its own. -/
theorem table?_erase (c : Contents) (gone : List RowPlace) (n : String) :
    (c.erase gone).table? n =
      (c.table? n).map fun t => t.erase ((gone.filter (·.table == t.name)).map (·.rowid)) := by
  rw [table?, erase, List.find?_map]
  rfl

/-! ## Changes that keep keys -/

/-- Each table that is found has rows apart. -/
def Keyed (c : Contents) : Prop :=
  ∀ n t, c.table? n = some t → t.IsKeyed

/-- The same tables are found, and their rows are apart if they were. -/
structure KeepsKeys (c c' : Contents) : Prop where
  defined : ∀ n, (c'.table? n).map (·.definition) = (c.table? n).map (·.definition)
  keyed : c.Keyed → c'.Keyed

namespace KeepsKeys

/-- Keys are kept by doing nothing. -/
theorem refl (c : Contents) : KeepsKeys c c := ⟨fun _ => rfl, id⟩

/-- Keys are kept by one change after the other. -/
theorem trans (first : KeepsKeys c c') (second : KeepsKeys c' c'') : KeepsKeys c c'' :=
  ⟨fun n => (second.defined n).trans (first.defined n), second.keyed ∘ first.keyed⟩

/-- A table that was found is found with its definition. -/
theorem table? (keeps : KeepsKeys c c') (found : c.table? n = some t) :
    ∃ t', c'.table? n = some t' ∧ t'.definition = t.definition := by
  have same := keeps.defined n
  rw [found, Option.map_some] at same
  obtain ⟨t', found', sameDefinition⟩ := Option.map_eq_some_iff.mp same
  exact ⟨t', found', sameDefinition⟩

/-- A change of the tables of a name keeps the keys if it keeps those of the one that is found. -/
theorem modify {f : StoredTable → StoredTable} (found : c.table? n = some t)
    (names : ∀ u, u.isNamed n = true → Text.sameName (f u).name u.name = true)
    (sameDefinition : (f t).definition = t.definition) (keeps : t.IsKeyed → (f t).IsKeyed) :
    KeepsKeys c (c.modify n f) := by
  have finds (m : String) : (c.modify n f).table? m =
      (c.table? m).map fun u => if u.isNamed n then f u else u :=
    table?_modify fun u named => Text.sameName_congr (names u named) m
  -- of the tables of the name only one is found
  have only {m : String} {u : StoredTable} (foundU : c.table? m = some u)
      (named : u.isNamed n = true) : u = t := by
    have same : some u = some t := by
      rw [← table?_name foundU, table?_congr named, found]
    exact Option.some.inj same
  constructor
  · intro m
    rw [finds]
    cases foundU : c.table? m with
    | none => rfl
    | some u =>
        rw [Option.map_some, Option.map_some, Option.map_some]
        split
        · rename_i named
          rw [only foundU named, sameDefinition]
        · rfl
  · intro keyed m v foundV
    rw [finds] at foundV
    obtain ⟨u, foundU, rfl⟩ := Option.map_eq_some_iff.mp foundV
    have keyedU := keyed m u foundU
    split
    · rename_i named
      obtain rfl := only foundU named
      exact keeps keyedU
    · exact keyedU

/-- Rows that go break no key. -/
theorem erase (c : Contents) (gone : List RowPlace) : KeepsKeys c (c.erase gone) := by
  constructor
  · intro n
    rw [table?_erase, Option.map_map]
    rfl
  · intro keyed n v foundV
    rw [table?_erase] at foundV
    obtain ⟨u, foundU, rfl⟩ := Option.map_eq_some_iff.mp foundV
    exact (keyed n u foundU).erase _

/-- A row that clashes with none is put into the table that is found. -/
theorem put {row : StoredRow} {self : Option Int64} (found : c.table? n = some t)
    (placed : t.definition.Places row) (admitted : t.admits self row = true) :
    KeepsKeys c (c.modify t.name fun u => (u.erase self.toList).put row) :=
  modify (table?_name found) (fun u _ => Text.sameName_refl u.name) rfl fun keyed =>
    keyed.put placed admitted

end KeepsKeys

/-! ## Rows that go -/

private theorem keepsKeys_reassign {d : Dependent} {v : Value} (done : c.reassign d v = some c') :
    KeepsKeys c c' := by
  obtain ⟨t, r, rowid, a, found, -, moved, accepted, rfl⟩ := reassign_eq_some done
  exact .put found
    (StoredTable.places_of_accept accepted (StoredTable.places_of_movedTo moved))
    (StoredTable.admits_of_accept_abort accepted)

private theorem keepsKeys_release {d : Dependent} (done : c.release d = some c') :
    KeepsKeys c c' := by
  unfold release at done
  split at done
  · exact keepsKeys_reassign done
  · obtain ⟨v, -, reassigned⟩ := Option.bind_eq_some_iff.mp done
    exact keepsKeys_reassign reassigned
  · cases done
  · obtain rfl := Option.some.inj done
    exact .refl c
  · obtain rfl := Option.some.inj done
    exact .refl c

private theorem keepsKeys_releases {ds : List Dependent} (done : ds.foldlM release c = some c') :
    KeepsKeys c c' :=
  holds_releases (P := KeepsKeys c)
    (fun _ before released => before.trans (keepsKeys_release released)) (.refl c) done

/-- Rows that go, and all that goes or changes along with them, break no key. -/
theorem keepsKeys_remove {gone : List RowPlace} (done : c.remove enforced gone = some c') :
    KeepsKeys c c' := by
  unfold remove at done
  split at done
  · obtain rfl := Option.some.inj done
    exact .erase c gone
  · exact (KeepsKeys.erase c _).trans (keepsKeys_releases done)

/-! ## Rows that come -/

private theorem keepsKeys_write {self : Option Int64} {rowid : Int64} {a : Accepted}
    (found : c.table? n = some t) (placed : t.definition.Places ⟨rowid, a.values⟩)
    (done : c.write enforced t self rowid a = .ok c') : KeepsKeys c c' := by
  obtain ⟨next, removed, admitted, rfl⟩ := write_eq_ok done
  have removes := keepsKeys_remove removed
  obtain ⟨u, foundU, sameDefinition⟩ := removes.table? (table?_name found)
  have sameName : u.name = t.name := congrArg Table.name sameDefinition
  refine removes.trans ?_
  rw [← sameName]
  exact .put foundU (sameDefinition ▸ placed) (admitted u foundU)

/-- One row of an insertion breaks no key. -/
theorem keepsKeys_insertRow {policy : ConflictPolicy} {p next : Progress} {given : Row}
    (complete : ∀ t, p.contents.table? n = some t → given.length = t.definition.columns.length)
    (done : insertRow enforced policy n p given = .ok next) :
    KeepsKeys p.contents next.contents := by
  obtain ⟨t, rowid, found, -, ofRow⟩ := insertRow_eq_ok done
  have sameDefinition := definition_counting t rowid
  have sameName : (t.counting rowid).name = t.name := congrArg Table.name sameDefinition
  have counts : KeepsKeys p.contents (p.contents.modify t.name fun _ => t.counting rowid) := by
    refine .modify (table?_name found) (fun u named => ?_) sameDefinition fun keyed =>
      keyed.of_rows sameDefinition ?_
    · rw [sameName, Text.sameName_comm]
      exact named
    · unfold StoredTable.counting
      split <;> rfl
  rcases ofRow with rfl | ⟨a, after, accepted, written, rfl⟩
  · exact counts
  · have foundCounting : (p.contents.modify t.name fun _ => t.counting rowid).table? t.name =
        some (t.counting rowid) := by
      refine table?_modify_const (table?_name found) ?_
      rw [StoredTable.isNamed, sameName, Text.sameName_refl]
    have placed : (t.counting rowid).definition.Places ⟨rowid, a.values⟩ := by
      refine StoredTable.places_of_accept accepted ?_
      rw [sameDefinition]
      exact StoredTable.places_withRowid (complete t found) rowid
    exact counts.trans (keepsKeys_write foundCounting placed written)

private theorem keepsKeys_updateRow {policy : ConflictPolicy} {assignments : List (String × Value)}
    {p next : Progress} {self : Int64}
    (done : updateRow enforced policy n assignments p self = .ok next) :
    KeepsKeys p.contents next.contents := by
  rcases updateRow_eq_ok done with
    rfl | ⟨t, r, values, rowid, looked, a, after, found, -, -, moved, accepted, written, rfl⟩
  · exact .refl _
  · exact keepsKeys_write found
      (StoredTable.places_of_accept accepted (StoredTable.places_of_movedTo moved)) written

/-! ## Statements on rows -/

/-- What an insertion leaves breaks no key, whether it is done or not. -/
theorem keepsKeys_insert {s : InsertStatement} (left : left? (c.insert enforced s) = some c') :
    KeepsKeys c c' := by
  rcases left_insert left with rfl | ⟨t, rows, after, found, complete, isAfter, ended⟩
  · exact .refl c'
  · have started : KeepsKeys c (Progress.start c).contents := .refl c
    have ran : KeepsKeys c after := by
      rw [isAfter]
      refine holds_run (P := KeepsKeys c) (fun {p next row} member before done => ?_) started
      refine before.trans (keepsKeys_insertRow (fun u foundU => ?_) done)
      -- the table is as wide as when the statement began
      obtain ⟨u', foundU', sameDefinition⟩ := before.table? (table?_name found)
      obtain rfl := Option.some.inj (foundU.symm.trans foundU')
      obtain ⟨given, values⟩ := complete row member
      rw [sameDefinition]
      exact (forall₂_of_mapM values).length_eq.symm
    rcases ended with rfl | rfl
    · exact ran
    · obtain ⟨u, foundU, sameDefinition⟩ := ran.table? (table?_name found)
      exact ran.trans <|
        .modify foundU (fun v _ => Text.sameName_refl v.name) rfl fun keyed => keyed.of_rows rfl rfl

private theorem keepsKeys_update {s : UpdateStatement}
    (left : left? (c.update enforced s) = some c') : KeepsKeys c c' := by
  rcases left_update left with rfl | ⟨t, selves, -, rfl⟩
  · exact .refl c'
  · have started : KeepsKeys c (Progress.start c).contents := .refl c
    exact holds_run (P := KeepsKeys c)
      (fun _ before done => before.trans (keepsKeys_updateRow done)) started

private theorem keepsKeys_delete {s : DeleteStatement}
    (left : left? (c.delete enforced s) = some c') : KeepsKeys c c' := by
  rcases left_delete left with rfl | ⟨t, gone, -, -, removed⟩
  · exact .refl c'
  · exact keepsKeys_remove removed

/-- **Keys stay keys.** What a statement on rows leaves has the same tables, and their rows are apart
if they were. -/
theorem keepsKeys_effect {s : RowStatement} (left : left? (s.effect enforced c) = some c') :
    KeepsKeys c c' := by
  cases s with
  | insert s => exact keepsKeys_insert left
  | update s => exact keepsKeys_update left
  | delete s => exact keepsKeys_delete left

/-! ## Schema statements -/

/-- A database of no tables breaks no key. -/
theorem keyed_empty : Keyed .empty :=
  fun _ _ found => absurd (mem_of_table? found) List.not_mem_nil

/-- A new table has no rows that could break a key. -/
theorem Keyed.createTable {table : Table} (keyed : c.Keyed)
    (done : c.createTable table = some c') : c'.Keyed := by
  rcases createTable_eq_some done with ⟨-, rfl⟩ | rfl
  · exact keyed
  · intro n t found
    rw [table?, List.find?_append] at found
    rcases Option.or_eq_some_iff.mp found with before | ⟨-, isNew⟩
    · exact keyed n t before
    · obtain rfl := List.mem_singleton.mp (List.mem_of_find?_eq_some isNew)
      exact ⟨fun r member => absurd member List.not_mem_nil, .nil⟩

/-- A table that goes takes its rows along. -/
theorem Keyed.dropTable (keyed : c.Keyed) (name : String) : (c.dropTable name).Keyed := by
  intro n t found
  have named := isNamed_of_table? found
  have stays : t.isNamed name = false := by
    simpa using (List.mem_filter.mp (mem_of_table? found)).2
  have sameTables (u : StoredTable) (namedU : u.isNamed n = true) : u.isNamed name = false := by
    rw [← stays, StoredTable.isNamed, Text.sameName_congr namedU, ← Text.sameName_congr named]
    rfl
  refine keyed n t ?_
  rw [← found, table?, table?, Contents.dropTable, List.find?_filter]
  refine congrArg (fun p => List.find? p c.tables) (funext fun u => ?_)
  by_cases namedU : u.isNamed n = true
  · simp [namedU, sameTables u namedU]
  · simp [namedU]

/-- Schema statements break no key. -/
theorem Keyed.define {s : SchemaStatement} (keyed : c.Keyed) (done : c.define s = some c') :
    c'.Keyed := by
  cases s with
  | createTable table => exact keyed.createTable done
  | createIndex table column =>
      rcases createIndex_eq_some done with ⟨-, rfl⟩ | ⟨present, rfl⟩
      · exact keyed
      · obtain ⟨t, found⟩ := Option.isSome_iff_exists.mp present
        refine KeepsKeys.keyed ?_ keyed
        exact .modify found (fun u _ => Text.sameName_refl u.name) rfl fun keyed =>
          keyed.of_rows rfl rfl
  | dropTable name =>
      obtain rfl := Option.some.inj done
      exact keyed.dropTable name

end Contents

end Tabula
