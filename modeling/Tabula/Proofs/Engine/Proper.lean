import Tabula.Proofs.Engine.Acceptance
import Tabula.Proofs.Engine.Creation
import Tabula.Proofs.Engine.Equality

/-! # Values that are stored

What is not a number is stored as NULL, so no value of a table is NaN: every statement keeps this,
whatever it writes, lets go and refuses (`Tabula.Contents.IsProper.effect`).
-/

namespace Tabula

open Value

/-! ## Values -/

private theorem Binary64.not_isNaN_wholeValue {x : Binary64} (number : x.isNaN = false) :
    ¬x.wholeValue.IsNaN := by
  have isNumber : ¬(Value.real x).IsNaN := Bool.eq_false_iff.mp number
  unfold wholeValue
  split
  · split
    · exact id
    · exact isNumber
  · exact isNumber

/-- A column keeps numbers. -/
theorem StorageType.not_isNaN_store (k : StorageType) {v : Value} (number : ¬v.IsNaN) :
    ¬(k.store v).IsNaN := by
  have ofZero {x : Binary64} (isNumber : x.isNaN = false) :
      ¬(Value.real (if x.isZero then .zero else x)).IsNaN := by
    split
    · have isZero : Binary64.zero.isNaN = false := by decide +kernel
      exact Bool.eq_false_iff.mp isZero
    · exact Bool.eq_false_iff.mp isNumber
  cases v with
  | null => cases k <;> exact id
  | integer n =>
      cases k with
      | real => exact Bool.eq_false_iff.mp (Binary64.isNaN_ofRatio _ _ _)
      | _ => exact id
  | real x =>
      have isNumber : x.isNaN = false := Bool.eq_false_of_not_eq_true number
      cases k with
      | integer => exact Binary64.not_isNaN_wholeValue isNumber
      | real => exact ofZero isNumber
      | text => exact id
      | blob => exact number
  | text s =>
      cases k with
      | integer =>
          rw [store]
          cases read : Numeral.ofText? s with
          | none => exact id
          | some n =>
              have isNumber := n.not_isNaN_value
              rw [Option.map_some]
              split
              · rename_i x isReal
                rw [Option.some.inj isReal] at isNumber
                exact Binary64.not_isNaN_wholeValue (Bool.eq_false_of_not_eq_true isNumber)
              · rename_i w _ isValue
                rwa [Option.some.inj isValue] at isNumber
              · exact id
      | real =>
          rw [store]
          split
          · exact ofZero (Binary64.isNaN_ofRatio _ _ _)
          · exact id
      | _ => exact id
  | blob bytes => cases k <;> exact id

namespace Column

variable {c : Column} {v w : Value}

/-- A literal is never the real that is no number. -/
theorem not_isNaN_literal {expr : String} (isLiteral : literal? expr = some v) : ¬v.IsNaN := by
  unfold literal? at isLiteral
  dsimp only at isLiteral
  split at isLiteral
  · obtain rfl := Option.some.inj isLiteral
    exact id
  · split at isLiteral
    · obtain rfl := Option.some.inj isLiteral
      exact id
    · split at isLiteral
      · obtain rfl := Option.some.inj isLiteral
        exact id
      · split at isLiteral
        · obtain rfl := Option.some.inj isLiteral
          exact id
        · obtain ⟨n, -, rfl⟩ := Option.map_eq_some_iff.mp isLiteral
          exact n.not_isNaN_value

private theorem not_isNaN_default (isDefault : c.defaultValue? = some v) : ¬v.IsNaN := by
  unfold defaultValue? at isDefault
  split at isDefault
  · obtain rfl := Option.some.inj isDefault
    exact id
  · obtain ⟨w, isLiteral, rfl⟩ := Option.map_eq_some_iff.mp isDefault
    exact c.storage.not_isNaN_store (not_isNaN_literal isLiteral)

/-- Where a number was, no default puts something else. -/
theorem not_isNaN_fill {policy : ConflictPolicy} (number : ¬v.IsNaN)
    (filled : c.fill policy v = .ok w) : ¬w.IsNaN := by
  unfold fill at filled
  split at filled
  · obtain rfl := Except.ok.inj filled
    exact number
  · dsimp only at filled
    split at filled
    · split at filled
      · rename_i d isDefault
        split at filled
        · cases filled
        · obtain rfl := Except.ok.inj filled
          exact not_isNaN_default isDefault
      · cases filled
    · cases filled

end Column

/-! ## Rows -/

/-- No value of the row is NaN. -/
def Row.IsProper (row : Row) : Prop :=
  ∀ v ∈ row, ¬v.IsNaN

namespace Row

variable {row filled : Row}

/-- A value is replaced by one that is proper. -/
theorem IsProper.set (proper : row.IsProper) {v : Value} (number : ¬v.IsNaN) (place : Nat) :
    Row.IsProper (row.set place v) := by
  intro w member
  rcases List.mem_or_eq_of_mem_set member with isOld | rfl
  · exact proper w isOld
  · exact number

/-- Every place of a proper row has something proper, NULL beyond its end. -/
theorem IsProper.getD (proper : row.IsProper) (place : Nat) : ¬(row.getD place .null).IsNaN := by
  rw [List.getD_eq_getElem?_getD]
  cases found : row[place]? with
  | none => exact id
  | some v => exact proper v (List.mem_of_getElem? found)

/-- A proper row that is filled is proper. -/
theorem IsProper.fillRow {policy : ConflictPolicy} {looked : List String} {cs : List Column}
    (proper : row.IsProper) (done : Tabula.fillRow policy looked cs row = .ok filled) :
    filled.IsProper := by
  induction cs generalizing row filled with
  | nil =>
      obtain rfl := Except.ok.inj done
      exact fun w member => absurd member List.not_mem_nil
  | cons c cs ih =>
      cases row with
      | nil =>
          obtain rfl := Except.ok.inj done
          exact fun w member => absurd member List.not_mem_nil
      | cons v vs =>
          obtain ⟨w, rest, here, later, rfl⟩ := fillRow_cons_eq_ok done
          have number := proper v List.mem_cons_self
          have others := ih (fun u member => proper u (List.mem_cons_of_mem v member)) later
          intro u member
          rcases List.mem_cons.mp member with rfl | isLater
          · split at here
            · exact Column.not_isNaN_fill number here
            · exact here ▸ number
          · exact others u isLater

/-- Assignments leave a row proper, since their values are bound and stored first. -/
theorem IsProper.assign? {t : Table} {assignments : List (String × Value)}
    (proper : row.IsProper) (assigned : Contents.assign? t row assignments = some filled) :
    filled.IsProper := by
  induction assignments generalizing row with
  | nil =>
      obtain rfl := Option.some.inj assigned
      exact proper
  | cons a rest ih =>
      obtain ⟨name, v⟩ := a
      rw [Contents.assign?] at assigned
      split at assigned
      · rename_i place c stands
        exact ih (proper.set (c.storage.not_isNaN_store (not_isNaN_bound v)) place) assigned
      · cases assigned

end Row

private theorem StoredTable.isProper_of_accept {t : StoredTable} {policy : ConflictPolicy}
    {self : Option Int64} {looked : List String} {row : StoredRow} {a : Accepted}
    (proper : row.values.IsProper) (accepted : t.accept policy self looked row = .ok a) :
    a.values.IsProper :=
  proper.fillRow (accept_eq_ok accepted).1

/-! ## Statements -/

namespace Contents

variable {c c' : Contents} {n : String} {enforced : Bool}

/-- No stored value is NaN. -/
def IsProper (c : Contents) : Prop :=
  ∀ t ∈ c.tables, ∀ r ∈ t.rows, r.values.IsProper

private theorem isProper_inserted {columns : List String} {cs : List Column} {given row : Row}
    (done : cs.mapM (insertedValue? columns given) = some row) : row.IsProper := by
  intro v member
  obtain ⟨c, isValue⟩ := exists_of_mem_mapM done member
  unfold insertedValue? at isValue
  split at isValue
  · obtain rfl := Option.some.inj isValue
    exact c.storage.not_isNaN_store (not_isNaN_bound _)
  · split at isValue
    · obtain rfl := Option.some.inj isValue
      exact id
    · exact Column.not_isNaN_default isValue

namespace IsProper

variable {t : StoredTable}

/-- The rows of each table are proper. -/
theorem of_table? (proper : c.IsProper) (found : c.table? n = some t) {r : StoredRow}
    (member : r ∈ t.rows) : r.values.IsProper :=
  proper t (mem_of_table? found) r member

/-- Tables may come to have rows that are proper themselves. -/
theorem modify (proper : c.IsProper) {f : StoredTable → StoredTable}
    (rows : ∀ u ∈ c.tables, ∀ r ∈ (f u).rows, r ∈ u.rows ∨ r.values.IsProper) :
    (c.modify n f).IsProper := by
  intro u isTable r member
  obtain ⟨v, isOld, rfl⟩ := List.mem_map.mp isTable
  split at member
  · rcases rows v isOld r member with before | isNew
    · exact proper v isOld r before
    · exact isNew
  · exact proper v isOld r member

/-- Rows that go leave proper ones. -/
theorem erase (proper : c.IsProper) (gone : List RowPlace) : (c.erase gone).IsProper := by
  intro u isTable r member
  obtain ⟨v, isOld, rfl⟩ := List.mem_map.mp isTable
  exact proper v isOld r (List.mem_filter.mp member).1

/-- One more proper row, in the place of others. -/
theorem put (proper : c.IsProper) {row : StoredRow} (isProper : row.values.IsProper)
    (gone : List Int64) : (c.modify n fun u => (u.erase gone).put row).IsProper := by
  refine proper.modify fun u _ r member => ?_
  rcases StoredTable.mem_place member with rfl | isLeft
  · exact Or.inr isProper
  · exact Or.inl (List.mem_filter.mp isLeft).1

/-- A reference may be assigned anything proper. -/
theorem reassign (proper : c.IsProper) {d : Dependent} {v : Value} (number : ¬v.IsNaN)
    (done : c.reassign d v = some c') : c'.IsProper := by
  obtain ⟨t, r, rowid, a, found, isRow, -, accepted, rfl⟩ := reassign_eq_some done
  have before := proper.of_table? found (List.mem_of_find?_eq_some isRow)
  exact proper.put (StoredTable.isProper_of_accept (before.set number _) accepted) _

/-- A dependent row is proper after its release, whatever its reference asks for. -/
theorem release (proper : c.IsProper) {d : Dependent} (done : c.release d = some c') :
    c'.IsProper := by
  unfold Contents.release at done
  split at done
  · exact proper.reassign id done
  · obtain ⟨v, isDefault, reassigned⟩ := Option.bind_eq_some_iff.mp done
    exact proper.reassign (Column.not_isNaN_default isDefault) reassigned
  · cases done
  · obtain rfl := Option.some.inj done
    exact proper
  · obtain rfl := Option.some.inj done
    exact proper

/-- Rows that go, and all that goes or changes along with them, leave proper ones. -/
theorem remove (proper : c.IsProper) {gone : List RowPlace}
    (done : c.remove enforced gone = some c') : c'.IsProper := by
  unfold Contents.remove at done
  split at done
  · obtain rfl := Option.some.inj done
    exact proper.erase gone
  · exact holds_releases (P := IsProper) (fun _ before released => before.release released)
      (proper.erase _) done

/-- A proper row is written, and those that it displaces go. -/
theorem write (proper : c.IsProper) {self : Option Int64} {rowid : Int64} {a : Accepted}
    (isProper : a.values.IsProper) (done : c.write enforced t self rowid a = .ok c') :
    c'.IsProper := by
  obtain ⟨next, removed, -, rfl⟩ := write_eq_ok done
  exact (proper.remove removed).put isProper _

/-- One row of an insertion leaves proper rows. -/
theorem insertRow {policy : ConflictPolicy} {p next : Progress} (proper : p.contents.IsProper)
    {given : Row} (isProper : given.IsProper)
    (done : Contents.insertRow enforced policy n p given = .ok next) : next.contents.IsProper := by
  obtain ⟨t, rowid, found, -, ofRow⟩ := insertRow_eq_ok done
  have counts : (p.contents.modify t.name fun _ => t.counting rowid).IsProper := by
    refine proper.modify fun u _ r member => Or.inr (proper.of_table? found ?_)
    unfold StoredTable.counting at member
    split at member <;> exact member
  rcases ofRow with rfl | ⟨a, after, accepted, written, rfl⟩
  · exact counts
  · refine counts.write (StoredTable.isProper_of_accept ?_ accepted) written
    rw [StoredTable.withRowid]
    split
    · exact isProper.set id _
    · exact isProper

/-- One row of an update leaves proper rows. -/
theorem updateRow {policy : ConflictPolicy} {assignments : List (String × Value)}
    {p next : Progress} (proper : p.contents.IsProper) {self : Int64}
    (done : Contents.updateRow enforced policy n assignments p self = .ok next) :
    next.contents.IsProper := by
  rcases updateRow_eq_ok done with
    rfl | ⟨t, r, values, rowid, looked, a, after, found, isRow, assigned, -, accepted, written, rfl⟩
  · exact proper
  · have before := proper.of_table? found (List.mem_of_find?_eq_some isRow)
    exact proper.write (StoredTable.isProper_of_accept (before.assign? assigned) accepted) written

/-- **What is stored stays proper.** What a statement on rows leaves has no NaN in it if there was
none before, whatever the values are that it is given. -/
theorem effect (proper : c.IsProper) {s : RowStatement}
    (left : left? (s.effect enforced c) = some c') : c'.IsProper := by
  cases s with
  | insert s =>
      rcases left_insert left with rfl | ⟨t, rows, after, -, ofRows, isAfter, ended⟩
      · exact proper
      · have ran : after.IsProper := by
          rw [isAfter]
          refine holds_run (P := IsProper) (fun member before done => ?_) proper
          obtain ⟨given, values⟩ := ofRows _ member
          exact before.insertRow (isProper_inserted values) done
        rcases ended with rfl | rfl
        · exact ran
        · exact ran.modify fun u _ r member => Or.inl member
  | update s =>
      rcases left_update left with rfl | ⟨t, selves, -, rfl⟩
      · exact proper
      · exact holds_run (P := IsProper) (fun _ before done => before.updateRow done) proper
  | delete s =>
      rcases left_delete left with rfl | ⟨t, gone, -, -, removed⟩
      · exact proper
      · exact proper.remove removed

/-- Schema statements leave proper rows, since defaults are proper. -/
theorem define (proper : c.IsProper) {s : SchemaStatement} (done : c.define s = some c') :
    c'.IsProper := by
  cases s with
  | createTable table =>
      rcases createTable_eq_some done with ⟨-, rfl⟩ | rfl
      · exact proper
      · intro t isTable r member
        rcases List.mem_append.mp isTable with isOld | isNew
        · exact proper t isOld r member
        · obtain rfl := List.mem_singleton.mp isNew
          exact absurd member List.not_mem_nil
  | createIndex table column =>
      rcases createIndex_eq_some done with ⟨-, rfl⟩ | ⟨-, rfl⟩
      · exact proper
      · exact proper.modify fun u _ r member => Or.inl member
  | dropTable name =>
      obtain rfl := Option.some.inj done
      exact fun t isTable => proper t (List.mem_filter.mp isTable).1

end IsProper

end Contents

end Tabula
