import Tabula.Engine.Reading
import Tabula.Proofs.Engine.Insertion
import Tabula.Proofs.Engine.Keeping
import Tabula.Proofs.Schema.TableText

/-! # Storing and reading whole rows

A row is stored column by column, and a key that is left out takes its position or its default
(`Tabula.Contents.leaves_of_insert`). A selection of all columns reads the row as it is stored
(`Tabula.Contents.select_of_filter_eq`). Both find the columns by their names, which are different even
up to case in a table without faults.
-/

namespace Tabula

/-! ## Columns by name -/

/-- Among distinct names each one is found by any of its spellings, at its own place. -/
theorem find?_sameName {α : Type} (name : α → String) {xs : List α}
    (distinct : (xs.map fun x => Text.lower (name x)).Nodup) {i : Nat} {x : α}
    (place : xs[i]? = some x) :
    xs.find? (fun y => Text.sameName (name y) (name x)) = some x ∧
      xs.findIdx? (fun y => Text.sameName (name y) (name x)) = some i := by
  induction xs generalizing i with
  | nil => cases place
  | cons y ys ih =>
      obtain ⟨new, distinct⟩ := List.nodup_cons.mp distinct
      cases i with
      | zero =>
          obtain rfl : y = x := Option.some.inj place
          have same : Text.sameName (name y) (name y) = true := Text.sameName_refl _
          simp only [List.find?_cons, List.findIdx?_cons, same, if_true, and_self]
      | succ i =>
          have member : x ∈ ys := List.mem_of_getElem? place
          have apart : Text.sameName (name y) (name x) = false := by
            refine Text.sameName_eq_false fun same => new ?_
            exact List.mem_map.mpr ⟨x, member, same.symm⟩
          obtain ⟨found, index⟩ := ih distinct place
          simp only [List.find?_cons, List.findIdx?_cons, apart, found, index, Bool.false_eq_true,
            if_false, Option.map_some, and_self]

private theorem mapM_map_eq_some {α β γ : Type} {f : β → Option γ} {g : α → β} {h : α → γ}
    {ps : List α}
    (each : ∀ p ∈ ps, f (g p) = some (h p)) : (ps.map g).mapM f = some (ps.map h) := by
  induction ps with
  | nil => rfl
  | cons p ps ih =>
      have others := ih fun q member => each q (List.mem_cons_of_mem p member)
      rw [List.map_cons, List.mapM_cons, each p List.mem_cons_self, others]
      rfl

namespace Table

variable {t : Table}

/-- The names of the columns are those of the columns in their places. -/
theorem mapM_cell? (faultless : t.faults = []) :
    t.columnNames.mapM t.cell? = some (t.columns.zipIdx.map fun p => .column p.2 p.1) := by
  have names : t.columnNames = t.columns.zipIdx.map (·.1.name) := by
    have columns : t.columns.zipIdx.map Prod.fst = t.columns := List.zipIdx_map_fst 0 t.columns
    conv => lhs; rw [columnNames, ← columns, List.map_map]
    rfl
  rw [names]
  refine mapM_map_eq_some fun p member => ?_
  have place : t.columns[p.2]? = some p.1 := List.mem_zipIdx_iff_getElem?.mp member
  obtain ⟨found, index⟩ := find?_sameName Column.name (nodup_lowerNames faultless) place
  have isColumn : t.find? p.1.name = some p.1 := found
  have isIndex : t.index? p.1.name = some p.2 := index
  rw [cell?, isColumn, isIndex]

/-! ### Written columns -/

section Written

variable {writes : Column → Bool} {row : Row} {p : Column × Value}

/-- The columns of a table with the values of a row in those that are written. -/
def written (t : Table) (writes : Column → Bool) (row : Row) : List (Column × Value) :=
  (t.columns.zip row).filter fun p => writes p.1

private theorem insertedValue?_written (t : Table) (writes : Column → Bool) (row : Row)
    (c : Column) : Contents.insertedValue? ((t.written writes row).map (·.1.name))
        ((t.written writes row).map (·.2)) c =
      match (t.written writes row).find? fun p => Text.sameName p.1.name c.name with
      | some p => some (c.storage.store p.2.bound)
      | none => if isRowid c then some .null else c.defaultValue? := by
  rw [Contents.insertedValue?, List.zip_map', List.find?_map]
  simp only [Function.comp_def]
  cases (t.written writes row).find? fun p => Text.sameName p.1.name c.name <;> rfl

private theorem nodup_lower_zip (faultless : t.faults = [])
    (complete : row.length = t.columns.length) :
    ((t.columns.zip row).map fun p => Text.lower p.1.name).Nodup := by
  have names := nodup_lowerNames faultless
  rw [← List.map_fst_zip complete.ge, List.map_map] at names
  exact names

/-- A column that is written takes the value that is given for it. -/
theorem insertedValue?_of_writes (faultless : t.faults = [])
    (complete : row.length = t.columns.length) (member : p ∈ t.columns.zip row)
    (isWritten : writes p.1 = true) :
    Contents.insertedValue? ((t.written writes row).map (·.1.name))
      ((t.written writes row).map (·.2)) p.1 = some (p.1.storage.store p.2.bound) := by
  have isThere : p ∈ t.written writes row := List.mem_filter.mpr ⟨member, isWritten⟩
  have distinct : ((t.written writes row).map fun p => Text.lower p.1.name).Nodup :=
    (nodup_lower_zip faultless complete).sublist (List.filter_sublist.map _)
  obtain ⟨i, place⟩ := List.getElem?_of_mem isThere
  have found := (find?_sameName (fun q : Column × Value => q.1.name) distinct place).1
  rw [insertedValue?_written, found]

/-- A column that is left out takes its default, unless it is the position of the row. -/
theorem insertedValue?_of_omits (faultless : t.faults = [])
    (complete : row.length = t.columns.length) (member : p ∈ t.columns.zip row)
    (omits : writes p.1 = false) :
    Contents.insertedValue? ((t.written writes row).map (·.1.name))
      ((t.written writes row).map (·.2)) p.1 =
        if isRowid p.1 then some .null else p.1.defaultValue? := by
  have notFound : (t.written writes row).find?
      (fun q => Text.sameName q.1.name p.1.name) = none := by
    refine List.find?_eq_none.mpr fun q isThere same => ?_
    obtain ⟨memberQ, isWritten⟩ := List.mem_filter.mp isThere
    have isP : q = p := List.inj_on_of_nodup_map (nodup_lower_zip faultless complete) memberQ member
      (Text.lower_eq_of_sameName same)
    rw [isP, omits] at isWritten
    cases isWritten
  rw [insertedValue?_written, notFound]

end Written

private theorem countP_isRowid_le (faultless : t.faults = []) : t.columns.countP isRowid ≤ 1 := by
  have keys : t.columns.countP (·.primaryKey) ≤ 1 := by
    simp only [faults, List.append_eq_nil_iff] at faultless
    by_contra several
    have more : 1 < t.keyNames.length := by
      rw [keyNames, List.length_map, ← List.countP_eq_length_filter]
      exact Nat.lt_of_not_le several
    rw [if_pos more] at faultless
    cases faultless.2
  refine (List.countP_mono_left fun c _ isRowid => ?_).trans keys
  exact (Bool.and_eq_true_iff.mp isRowid).1

end Table

/-! ## The position of the row -/

section Position

open Table

variable {ps : List (Column × Value)}

/-- After the first column that is the position of the row comes none. -/
theorem not_isRowid_of_first {q : Column × Value}
    (single : ((q :: ps).map (·.1)).countP isRowid ≤ 1) (first : isRowid q.1 = true) :
    ∀ p ∈ ps, ¬isRowid p.1 = true := by
  rw [List.map_cons, List.countP_cons, if_pos first] at single
  have none : (ps.map (·.1)).countP isRowid = 0 := by omega
  exact fun p member => List.countP_eq_zero.mp none p.1 (List.mem_map_of_mem member)

private theorem countP_tail_le_one {q : Column × Value}
    (single : ((q :: ps).map (·.1)).countP isRowid ≤ 1) : (ps.map (·.1)).countP isRowid ≤ 1 :=
  ((List.sublist_cons_self _ _).countP_le).trans single

/-- The value that stands where the position does is that of its column. -/
theorem getD_rowidPlace (single : (ps.map (·.1)).countP isRowid ≤ 1) {p : Column × Value}
    (member : p ∈ ps) (holds : isRowid p.1 = true) :
    ∃ place, (ps.map (·.1)).findIdx? isRowid = some place ∧
      (ps.map (·.2)).getD place .null = p.2 := by
  induction ps with
  | nil => cases member
  | cons q ps ih =>
      rw [List.map_cons, List.findIdx?_cons]
      by_cases first : isRowid q.1 = true
      · rcases List.mem_cons.mp member with rfl | later
        · exact ⟨0, if_pos first, rfl⟩
        · exact absurd holds (not_isRowid_of_first single first p later)
      · rcases List.mem_cons.mp member with rfl | later
        · exact absurd holds first
        · obtain ⟨place, found, value⟩ := ih (countP_tail_le_one single) later
          exact ⟨place + 1, by rw [if_neg first, found]; rfl, value⟩

private theorem set_rowidPlace (single : (ps.map (·.1)).countP isRowid ≤ 1) (v : Value) :
    ((ps.map (·.1)).findIdx? isRowid).elim (ps.map (·.2)) ((ps.map (·.2)).set · v) =
      ps.map fun p => if isRowid p.1 then v else p.2 := by
  induction ps with
  | nil => rfl
  | cons q ps ih =>
      rw [List.map_cons, List.findIdx?_cons]
      by_cases first : isRowid q.1 = true
      · rw [if_pos first, List.map_cons, List.map_cons, if_pos first]
        refine congrArg (List.cons v) (List.map_congr_left fun p member => ?_)
        rw [if_neg (not_isRowid_of_first single first p member)]
      · have others := ih (countP_tail_le_one single)
        rw [if_neg first, List.map_cons, List.map_cons, if_neg first, ← others]
        cases (ps.map (·.1)).findIdx? isRowid <;> rfl

end Position

/-! ## Storing -/

/-- A column stores what it is filled with: the position of the row where it holds that, otherwise
the value, or its default where the policy puts one in the place of NULL. -/
theorem Column.stores_of_fill {c : Column} {policy : ConflictPolicy} {rowid : Int64} {v w : Value}
    (isPosition : Table.isRowid c = true → v = .null ∨ v = .integer rowid)
    (filled : c.fill policy (if Table.isRowid c then .integer rowid else v) = .ok w) :
    c.Stores v w := by
  by_cases holds : Table.isRowid c = true
  · have isKey : c.primaryKey = true := (Bool.and_eq_true_iff.mp holds).1
    rw [if_pos holds, fill, isKey, Bool.true_or, Bool.true_or, if_pos rfl] at filled
    obtain rfl := Except.ok.inj filled
    refine ⟨fun full => ?_, fun _ => iff_of_false Value.noConfusion fun accepts => ?_⟩
    · exact ((isPosition holds).resolve_left full).symm
    · exact Bool.false_ne_true (accepts.1.symm.trans holds)
  · have notHeld : Table.isRowid c = false := Bool.eq_false_of_not_eq_true holds
    rw [if_neg holds, fill] at filled
    split at filled
    · rename_i allowed
      obtain rfl := Except.ok.inj filled
      refine ⟨fun _ => rfl, fun isNull => iff_of_true isNull ⟨notHeld, ?_⟩⟩
      subst isNull
      rcases Bool.or_eq_true_iff.mp allowed with either | full
      · exact (Bool.or_eq_true_iff.mp either).symm
      · cases full
    · rename_i refused
      simp only [Bool.or_eq_true, not_or, Bool.not_eq_true] at refused
      obtain ⟨⟨notKey, notNullable⟩, isNull⟩ := refused
      have isNull : v = .null := by
        cases v with
        | null => rfl
        | _ => exact absurd isNull Bool.noConfusion
      refine ⟨fun full => absurd isNull full, fun _ => iff_of_false ?_ ?_⟩
      · intro stored
        subst stored
        dsimp only at filled
        split at filled
        · split at filled
          · split at filled
            · cases filled
            · rename_i notNull
              obtain rfl := Except.ok.inj filled
              exact notNull rfl
          · cases filled
        · cases filled
      · rintro ⟨-, nullable | key⟩
        · exact Bool.false_ne_true (notNullable.symm.trans nullable)
        · exact Bool.false_ne_true (notKey.symm.trans key)

/-- What the engine puts into a column that is left out: the position of the row, or the default. -/
def Column.omitted? (rowid : Int64) (c : Column) : Option Value :=
  if Table.isRowid c then some (.integer rowid) else c.defaultValue?

/-- What an insertion leaves in a column, of the given value if the column is written. -/
def Column.Leaves (writes : Column → Bool) (rowid : Int64) (p : Column × Value) (w : Value) : Prop :=
  if writes p.1 then p.1.Stores (p.1.storage.store p.2.bound) w else p.1.omitted? rowid = some w

/-- A column leaves what it is filled with, where one that is left out is a key. -/
theorem Column.leaves_of_fill {writes : Column → Bool} {rowid : Int64} {policy : ConflictPolicy}
    {c : Column} {v given w : Value}
    (ofWritten : writes c = true → given = c.storage.store v.bound)
    (ofOmitted : writes c = false →
      c.primaryKey = true ∧ (if Table.isRowid c then some .null else c.defaultValue?) = some given)
    (isPosition : Table.isRowid c = true → given = .null ∨ given = .integer rowid)
    (filled : c.fill policy (if Table.isRowid c then .integer rowid else given) = .ok w) :
    Leaves writes rowid (c, v) w := by
  cases isWritten : writes c with
  | true =>
      rw [ofWritten isWritten] at isPosition filled
      rw [Leaves, if_pos isWritten]
      exact stores_of_fill isPosition filled
  | false =>
      obtain ⟨isKey, isGiven⟩ := ofOmitted isWritten
      rw [fill_key isKey] at filled
      obtain rfl := Except.ok.inj filled
      rw [Leaves, if_neg (Bool.eq_false_iff.mp isWritten), omitted?]
      split at isGiven
      · rename_i holds
        rw [if_pos holds, if_pos holds]
      · rename_i notHeld
        rw [if_neg notHeld, if_neg notHeld, isGiven]

/-- Lists that are related over a third one. -/
theorem forall₂_zip_through {α β γ δ : Type} {R : α × β → γ → Prop} {Q : α × γ → δ → Prop}
    {S : α × β → δ → Prop} {xs : List α} {ys : List β} {zs : List γ} {ws : List δ}
    (first : List.Forall₂ R (xs.zip ys) zs) (second : List.Forall₂ Q (xs.zip zs) ws)
    (through : ∀ x y z w, R (x, y) z → Q (x, z) w → S (x, y) w) :
    List.Forall₂ S (xs.zip ys) ws := by
  induction xs generalizing ys zs ws with
  | nil =>
      obtain rfl := List.forall₂_nil_left_iff.mp second
      exact .nil
  | cons x xs ih =>
      cases ys with
      | nil =>
          obtain rfl := List.forall₂_nil_left_iff.mp first
          obtain rfl := List.forall₂_nil_left_iff.mp second
          exact .nil
      | cons y ys =>
          obtain ⟨z, zs, here, later, rfl⟩ := List.forall₂_cons_left_iff.mp first
          obtain ⟨w, ws, here', later', rfl⟩ := List.forall₂_cons_left_iff.mp second
          exact .cons (through x y z w here here') (ih later later')

namespace Contents

variable {c c' : Contents} {t : StoredTable} {enforced : Bool}

section Filling

variable {rowid : Int64} {given stored : Row} (faultless : t.definition.faults = [])
  (complete : given.length = t.definition.columns.length)
include faultless complete

/-- The column of the position is given it, or nothing. -/
theorem null_or_integer_of_rowidOf? (placed : t.rowidOf? given = some rowid)
    {p : Column × Value} (member : p ∈ t.definition.columns.zip given)
    (holds : Table.isRowid p.1 = true) : p.2 = .null ∨ p.2 = .integer rowid := by
  have single := Table.countP_isRowid_le faultless
  rw [← List.map_fst_zip complete.ge] at single
  obtain ⟨place, isPlace, value⟩ := getD_rowidPlace single member holds
  rw [List.map_fst_zip complete.ge] at isPlace
  rw [List.map_snd_zip complete.le] at value
  rw [StoredTable.rowidOf?, Table.rowidPlace?, isPlace, Option.map_some, value] at placed
  split at placed
  · contradiction
  · rename_i isNull
    exact Or.inl (Option.some.inj isNull)
  · rename_i isInteger
    obtain rfl := Option.some.inj placed
    exact Or.inr (Option.some.inj isInteger)
  · cases placed

private theorem withRowid_eq_map (rowid : Int64) :
    t.withRowid rowid given = (t.definition.columns.zip given).map fun p =>
      if Table.isRowid p.1 then .integer rowid else p.2 := by
  have single := Table.countP_isRowid_le faultless
  rw [← List.map_fst_zip complete.ge] at single
  rw [← set_rowidPlace single, List.map_fst_zip complete.ge, List.map_snd_zip complete.le,
    StoredTable.withRowid, ← Table.rowidPlace?]
  cases t.definition.rowidPlace? <;> rfl

/-- The values of a row are filled in around its position. -/
theorem fills_of_rowid {policy : ConflictPolicy} (placed : t.rowidOf? given = some rowid)
    (filled : fillRow policy t.definition.columnNames t.definition.columns
      (t.withRowid rowid given) = .ok stored) :
    List.Forall₂ (fun p w => (Table.isRowid p.1 = true → p.2 = .null ∨ p.2 = .integer rowid) ∧
        p.1.fill policy (if Table.isRowid p.1 then .integer rowid else p.2) = .ok w)
      (t.definition.columns.zip given) stored := by
  have positions : ∀ p ∈ t.definition.columns.zip given,
      p.1.name ∈ t.definition.columnNames ∧
        (Table.isRowid p.1 = true → p.2 = .null ∨ p.2 = .integer rowid) := fun p member =>
    ⟨List.mem_map_of_mem (List.of_mem_zip member).1,
      null_or_integer_of_rowidOf? faultless complete placed member⟩
  have columnwise := forall₂_of_fillRow filled
  rw [withRowid_eq_map faultless complete] at columnwise
  conv at columnwise => arg 2; arg 1; rw [← List.map_fst_zip complete.ge]
  rw [List.zip_map', List.forall₂_map_left_iff] at columnwise
  refine ((List.forall₂_and_left _ _).mpr ⟨positions, columnwise⟩).imp ?_
  rintro p w ⟨⟨isNamed, isPosition⟩, here⟩
  exact ⟨isPosition, by rwa [if_pos isNamed] at here⟩

end Filling

/-- **A row is stored column by column.** An insertion of values for some columns, where the others
are keys, answers the position of the row, and the only row there has in each column what the column
stores of the given value, or what it takes if it is left out. -/
theorem leaves_of_insert {s : InsertStatement} (writes : Column → Bool) (row : Row) {changed : Nat}
    {last : Option Int64} (found : c.table? s.table = some t)
    (faultless : t.definition.faults = [])
    (columns : s.columns = (t.definition.written writes row).map (·.1.name))
    (one : (if s.columns.isEmpty then [[]] else s.rows) =
      [(t.definition.written writes row).map (·.2)])
    (complete : row.length = t.definition.columns.length)
    (keys : ∀ c ∈ t.definition.columns, writes c = false → c.primaryKey = true)
    (done : c.insert enforced s = .done c' changed last) (counted : 0 < changed) :
    ∃ rowid stored t', last = some rowid ∧
      List.Forall₂ (Column.Leaves writes rowid) (t.definition.columns.zip row) stored ∧
      c'.table? s.table = some t' ∧ t'.definition = t.definition ∧
      t'.rows.filter (·.rowid == rowid) = [⟨rowid, stored⟩] := by
  obtain ⟨given, rowid, stored, areGiven, placed, answer, filled, t', found', definition, rows⟩ :=
    row_of_insert found one done counted
  refine ⟨rowid, stored, t', answer, ?_, found', definition, rows⟩
  have values := forall₂_of_mapM areGiven
  have fills := fills_of_rowid faultless values.length_eq.symm placed filled
  rw [← List.map_fst_zip complete.ge, List.forall₂_map_left_iff] at values
  have members := (List.forall₂_and_left (p := (· ∈ t.definition.columns.zip row)) _ _).mpr
    ⟨fun _ member => member, values⟩
  refine forall₂_zip_through members fills ?_
  rintro d v g w ⟨member, isGiven⟩ ⟨isPosition, fill⟩
  rw [columns] at isGiven
  refine Column.leaves_of_fill (fun isWritten => ?_) (fun omits => ⟨?_, ?_⟩) isPosition fill
  · rw [Table.insertedValue?_of_writes faultless complete member isWritten] at isGiven
    exact (Option.some.inj isGiven).symm
  · exact keys d (List.of_mem_zip member).1 omits
  · rwa [Table.insertedValue?_of_omits faultless complete member omits] at isGiven

/-- The insertion of a value for each column stores what each column makes of its value. -/
theorem stores_of_insert {s : InsertStatement} {row : Row} {changed : Nat} {last : Option Int64}
    (found : c.table? s.table = some t) (faultless : t.definition.faults = [])
    (columns : s.columns = t.definition.columnNames) (one : s.rows = [row])
    (complete : row.length = t.definition.columns.length)
    (done : c.insert enforced s = .done c' changed last) (counted : 0 < changed) :
    ∃ rowid stored t', last = some rowid ∧
      List.Forall₂ (fun p w => p.1.Stores (p.1.storage.store p.2.bound) w)
        (t.definition.columns.zip row) stored ∧
      c'.table? s.table = some t' ∧ t'.definition = t.definition ∧
      t'.rows.filter (·.rowid == rowid) = [⟨rowid, stored⟩] := by
  have all : t.definition.written (fun _ => true) row = t.definition.columns.zip row :=
    List.filter_eq_self.mpr fun _ _ => rfl
  have areNames : s.columns = (t.definition.columns.zip row).map (·.1.name) := by
    conv => lhs; rw [columns, Table.columnNames, ← List.map_fst_zip complete.ge, List.map_map]
    rfl
  have named : s.columns.isEmpty = false := by
    rw [columns]
    exact List.isEmpty_eq_false_iff.mpr fun none =>
      Table.columns_ne_nil faultless (List.map_eq_nil_iff.mp none)
  have isRow : (t.definition.columns.zip row).map (·.2) = row := List.map_snd_zip complete.le
  obtain ⟨rowid, stored, t', answer, leaves, found', definition, rows⟩ :=
    leaves_of_insert (s := s) (fun _ => true) row found faultless (by rw [all, areNames])
      (by rw [named, one, all, isRow]; rfl) complete
      (fun _ _ omits => absurd omits Bool.noConfusion) done counted
  refine ⟨rowid, stored, t', answer, leaves.imp fun p w leaves => ?_, found', definition, rows⟩
  rwa [Column.Leaves, if_pos rfl] at leaves

/-! ## Reading -/

private theorem map_cell {t : Table} {r : StoredRow}
    (complete : r.values.length = t.columns.length) :
    (t.columns.zipIdx.map fun p => Table.Cell.column p.2 p.1).map r.cell = r.values := by
  rw [List.map_map]
  refine List.ext_getElem (by simp [complete]) fun i inside inside' => ?_
  simp [StoredRow.cell, List.getD_eq_getElem?_getD, inside']

/-- A selection of all columns whose conditions hold of one row reads this row, by whatever plan. -/
theorem select_of_filter_eq {s : SelectStatement} {r : StoredRow}
    {order : List (Table.Cell × Direction)} (found : c.table? s.table = some t)
    (faultless : t.definition.faults = []) (columns : s.columns = t.definition.columnNames)
    (ordered : OrderTerm.cells? t.definition s.orders = some order) (taken : s.isTaken = true)
    (known : t.knows s.conditions = true) (only : t.filter s.conditions = [r])
    (window : window? s.limit s.offset [r.values] = some [r.values])
    (complete : r.values.length = t.definition.columns.length) (plan : Plan) :
    c.select s plan = some [r.values] := by
  have whole : c.readAll plan s.statement s = some [r.values] := by
    unfold readAll
    simp only [found, columns, Table.mapM_cell? faultless, ordered, taken, known, Bool.not_true,
      Bool.or_self, Bool.false_eq_true, if_false, only, plan.arrange_singleton, List.map_cons,
      List.map_nil, map_cell complete]
  rw [select, whole, Option.bind_some, window]

end Contents

end Tabula
