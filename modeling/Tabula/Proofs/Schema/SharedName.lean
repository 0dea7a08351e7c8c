import Mathlib.Data.List.FinRange
import Tabula.Proofs.Query.Surface
import Tabula.Proofs.Schema.Coexistence

/-! # Columns that share a name

Columns are told to share a name by counting: a first pass counts the names in lower case in a hash
map, and a second one looks every column up in it (`Tabula.Table.countedDuplicates`). Nothing depends
on the order of the map: its counts are those of the list (`Tabula.Column.getD_tally`), so a column
is reported exactly if another place has its name (`Tabula.Table.duplicateColumns_eq_map`). With the
columns and the keys in their order, this is all that a table by itself is reported for
(`Tabula.Table.faults_by_place`), and in a table without faults all look-ups of a name in any ASCII
case find the same column, or none.
-/

namespace Tabula

/-- What is counted twice at least is at two places. -/
theorem one_lt_countP_iff {α : Type} {p : α → Bool} {xs : List α} :
    1 < xs.countP p ↔ ∃ i j : Fin xs.length, i < j ∧ p xs[i] = true ∧ p xs[j] = true := by
  induction xs with
  | nil =>
      constructor
      · exact nofun
      · rintro ⟨i, -⟩
        exact i.elim0
  | cons x xs ih =>
      rw [List.countP_cons]
      simp only [List.length_cons, Fin.exists_fin_succ]
      by_cases holds : p x = true
      · have once : 0 < xs.countP p ↔ ∃ j : Fin xs.length, p xs[j] = true := by
          rw [List.countP_pos_iff, List.exists_mem_iff_getElem]
          exact ⟨fun ⟨j, inside, holds⟩ => ⟨⟨j, inside⟩, holds⟩,
            fun ⟨j, holds⟩ => ⟨j, j.isLt, holds⟩⟩
        have twice : ∀ i j : Fin xs.length, i < j → p xs[i] = true → p xs[j] = true →
            ∃ j : Fin xs.length, p xs[j] = true := fun i _ _ first _ => ⟨i, first⟩
        simpa [holds, once] using twice
      · simp [holds, ih]

/-! ## Counting names -/

namespace Column

/-- The counts with the name of one more column. -/
def count (counts : Std.HashMap String Nat) (c : Column) : Std.HashMap String Nat :=
  counts.insert (Text.lower c.name) (counts.getD (Text.lower c.name) 0 + 1)

/-- How often each name in lower case is there. -/
def tally (cs : List Column) : Std.HashMap String Nat :=
  cs.foldl count ∅

private theorem getD_count (counts : Std.HashMap String Nat) (c : Column) (lowerName : String) :
    (count counts c).getD lowerName 0 =
      counts.getD lowerName 0 + if Text.lower c.name == lowerName then 1 else 0 := by
  rw [count, Std.HashMap.getD_insert]
  by_cases named : (Text.lower c.name == lowerName) = true
  · obtain rfl := eq_of_beq named
    simp only [beq_self_eq_true, ↓reduceIte]
  · simp only [named, Bool.false_eq_true, ↓reduceIte, Nat.add_zero]

private theorem getD_foldl_count (cs : List Column) (counts : Std.HashMap String Nat)
    (lowerName : String) :
    (cs.foldl count counts).getD lowerName 0 =
      counts.getD lowerName 0 + cs.countP fun c => Text.lower c.name == lowerName := by
  induction cs generalizing counts with
  | nil => rfl
  | cons c cs ih =>
      rw [List.foldl_cons, ih, getD_count, List.countP_cons]
      omega

/-- A name is counted as often as it is in the list. -/
theorem getD_tally (cs : List Column) (lowerName : String) :
    (tally cs).getD lowerName 0 = cs.countP fun c => Text.lower c.name == lowerName := by
  rw [tally, getD_foldl_count, Std.HashMap.getD_empty, Nat.zero_add]

end Column

namespace Table

variable {t : Table} {name : String}

/-- One fault for each column whose name is counted more than once. -/
def countedDuplicates (t : Table) : List TableFault :=
  let counts := Column.tally t.columns
  t.columns.filterMap fun c =>
    let lowerName := Text.lower c.name
    if counts[lowerName]?.any (1 < ·) then
      some (.duplicateColumn t.name lowerName c.name c.field)
    else none

private theorem countedDuplicates_eq (t : Table) : t.countedDuplicates = t.duplicateColumns := by
  have counted (lowerName : String) :
      (Column.tally t.columns)[lowerName]?.any (1 < ·) = decide (1 < t.countNamed lowerName) := by
    rw [countNamed, ← Column.getD_tally, Std.HashMap.getD_eq_getD_getElem?]
    cases (Column.tally t.columns)[lowerName]? with
    | none => rfl
    | some n => rfl
  unfold countedDuplicates duplicateColumns
  simp only [counted]
  rw [← List.filterMap_eq_map, List.filterMap_filter]
  rfl

/-! ## Places -/

/-- Whether the column at a place has the same name in lower case as one at another place. -/
def SharesName (t : Table) (i : Fin t.columns.length) : Prop :=
  ∃ j : Fin t.columns.length, j ≠ i ∧
    Text.lower t.columns[j].name = Text.lower t.columns[i].name

instance (t : Table) : DecidablePred t.SharesName := fun i =>
  inferInstanceAs (Decidable (∃ j : Fin t.columns.length, j ≠ i ∧
    Text.lower t.columns[j].name = Text.lower t.columns[i].name))

/-- Whether there are keys at two places. -/
def HasSeveralKeys (t : Table) : Prop :=
  ∃ i j : Fin t.columns.length, i < j ∧
    t.columns[i].primaryKey = true ∧ t.columns[j].primaryKey = true

instance (t : Table) : Decidable t.HasSeveralKeys :=
  inferInstanceAs (Decidable (∃ i j : Fin t.columns.length, i < j ∧
    t.columns[i].primaryKey = true ∧ t.columns[j].primaryKey = true))

/-- The fault of a column that shares its name. -/
def duplicateAt (t : Table) (i : Fin t.columns.length) : TableFault :=
  .duplicateColumn t.name (Text.lower t.columns[i].name) t.columns[i].name t.columns[i].field

private theorem one_lt_countNamed_iff (i : Fin t.columns.length) :
    1 < t.countNamed (Text.lower t.columns[i].name) ↔ t.SharesName i := by
  rw [countNamed, one_lt_countP_iff]
  simp only [beq_iff_eq]
  constructor
  · rintro ⟨j, k, before, first, second⟩
    by_cases isHere : j = i
    · exact ⟨k, isHere ▸ before.ne', second⟩
    · exact ⟨j, isHere, first⟩
  · rintro ⟨j, other, same⟩
    rcases Nat.lt_or_gt_of_ne (Fin.val_ne_of_ne other) with before | after
    · exact ⟨j, i, before, same, rfl⟩
    · exact ⟨i, j, after, rfl, same⟩

private theorem one_lt_length_keyNames_iff : 1 < t.keyNames.length ↔ t.HasSeveralKeys := by
  rw [keyNames, List.length_map, ← List.countP_eq_length_filter, one_lt_countP_iff]
  rfl

/-- The columns that share their names are reported in their order. -/
theorem duplicateColumns_eq_map (t : Table) :
    t.duplicateColumns =
      ((List.finRange t.columns.length).filter t.SharesName).map t.duplicateAt := by
  have places : t.columns = (List.finRange t.columns.length).map fun i => t.columns[i] :=
    (List.map_getElem_finRange t.columns).symm
  rw [duplicateColumns]
  conv => lhs; rw [places]
  rw [List.filter_map, List.map_map]
  refine congrArg (List.map _) (List.filter_congr fun i _ => ?_)
  exact decide_eq_decide.mpr (one_lt_countNamed_iff i)

/-- The columns of a table without faults have names of their own. -/
theorem not_sharesName (faultless : t.faults = []) (i : Fin t.columns.length) :
    ¬t.SharesName i := by
  have none : t.duplicateColumns = [] := by
    simp only [faults, List.append_eq_nil_iff] at faultless
    exact faultless.1.1
  rw [duplicateColumns_eq_map, List.map_eq_nil_iff, List.filter_eq_nil_iff] at none
  exact fun shared => none i (List.mem_finRange i) (decide_eq_true shared)

/-! ## Looking up -/

/-- A name in any ASCII case is that of one place at most. -/
theorem sameName_iff_eq (faultless : t.faults = []) {i : Fin t.columns.length}
    (named : Text.sameName t.columns[i].name name = true) (j : Fin t.columns.length) :
    Text.sameName t.columns[j].name name = true ↔ j = i := by
  constructor
  · intro same
    by_contra other
    refine not_sharesName faultless i ⟨j, other, ?_⟩
    exact (Text.lower_eq_of_sameName same).trans (Text.lower_eq_of_sameName named).symm
  · rintro rfl
    exact named

/-- Two spellings of one name are looked up with the same result. -/
theorem find?_congr {spelling : String} (same : Text.sameName name spelling = true) :
    t.find? name = t.find? spelling ∧ t.index? name = t.index? spelling := by
  have spelled : (fun c : Column => Text.sameName c.name name) =
      fun c => Text.sameName c.name spelling := by
    funext c
    rw [Text.sameName_comm, Text.sameName_congr same, Text.sameName_comm]
  rw [find?, index?, spelled]
  exact ⟨rfl, rfl⟩

/-- Every look-up of a name finds the only column of the name. -/
theorem lookup_of_sameName (faultless : t.faults = []) {i : Fin t.columns.length}
    (named : Text.sameName t.columns[i].name name = true) :
    t.find? name = some t.columns[i] ∧ t.index? name = some i.val ∧
      (Surface.ofTable t).column name = .ok (.ofColumn t.columns[i] i) := by
  have place : t.columns[i.val]? = some t.columns[i] := List.getElem?_eq_getElem i.isLt
  have spelled : Text.sameName name t.columns[i].name = true := by
    rw [Text.sameName_comm]
    exact named
  obtain ⟨found, index⟩ := find?_sameName Column.name (nodup_lowerNames faultless) place
  obtain ⟨sameFind, sameIndex⟩ := find?_congr (t := t) spelled
  exact ⟨sameFind.trans found, sameIndex.trans index,
    Surface.column_ofTable faultless place spelled⟩

/-- No look-up of a name finds a column where none has it. -/
theorem lookup_of_absent
    (absent : ∀ i : Fin t.columns.length, Text.sameName t.columns[i].name name = false) :
    t.find? name = none ∧ t.index? name = none ∧
      (Surface.ofTable t).column name = .error (.unknownColumn t.name name) := by
  have notNamed : ∀ c ∈ t.columns, Text.sameName c.name name = false := by
    intro c member
    obtain ⟨i, inside, rfl⟩ := List.mem_iff_getElem.mp member
    exact absent ⟨i, inside⟩
  have notFound :
      (Surface.ofTable t).columns.find? (fun c => Text.sameName c.name name) = none := by
    refine List.find?_eq_none.mpr fun c member => ?_
    obtain ⟨⟨column, index⟩, isColumn, rfl⟩ := List.mem_map.mp member
    exact Bool.eq_false_iff.mp (notNamed column (List.fst_mem_of_mem_zipIdx isColumn))
  refine ⟨List.find?_eq_none.mpr fun c member => ?_, List.findIdx?_eq_none_iff.mpr notNamed, ?_⟩
  · exact Bool.eq_false_iff.mp (notNamed c member)
  · rw [Surface.column, notFound]
    rfl

/-- **What a table by itself is reported for, and what this is good for.** First come the columns
that share their names in lower case with a column at another place, as the passes with the counts
find them; then that there is no column; then the names of all keys if there are several. In a table
about which nothing is reported, a name in any ASCII case is that of one column, which every look-up
finds, or that of none, and then no look-up finds any. -/
theorem faults_by_place (t : Table) :
    t.faults =
      ((List.finRange t.columns.length).filter t.SharesName).map t.duplicateAt ++
      (if t.columns = [] then [.noColumn t.name] else []) ++
      (if t.HasSeveralKeys then [.severalKeys t.name t.keyNames] else []) ∧
    t.countedDuplicates =
      ((List.finRange t.columns.length).filter t.SharesName).map t.duplicateAt ∧
    (t.faults = [] → ∀ name,
      (∃ i : Fin t.columns.length,
        (∀ j, Text.sameName t.columns[j].name name = true ↔ j = i) ∧
        t.find? name = some t.columns[i] ∧ t.index? name = some i.val ∧
        (Surface.ofTable t).column name = .ok (.ofColumn t.columns[i] i)) ∨
      (∀ j : Fin t.columns.length, Text.sameName t.columns[j].name name = false) ∧
        t.find? name = none ∧ t.index? name = none ∧
        (Surface.ofTable t).column name = .error (.unknownColumn t.name name)) := by
  refine ⟨?_, t.countedDuplicates_eq.trans t.duplicateColumns_eq_map, fun faultless name => ?_⟩
  · rw [faults, duplicateColumns_eq_map]
    simp only [List.isEmpty_iff, one_lt_length_keyNames_iff]
  · by_cases known : ∃ i : Fin t.columns.length, Text.sameName t.columns[i].name name = true
    · obtain ⟨i, named⟩ := known
      exact Or.inl ⟨i, sameName_iff_eq faultless named, lookup_of_sameName faultless named⟩
    · have absent : ∀ i : Fin t.columns.length, Text.sameName t.columns[i].name name = false :=
        fun i => Bool.eq_false_of_not_eq_true fun named => known ⟨i, named⟩
      exact Or.inr ⟨absent, lookup_of_absent absent⟩

/-- A column is found in capitals too. -/
theorem faults_by_place_linked :
    (linked "author" "É").faults = [] ∧
      (linked "author" "É").find? "AUTHOR" =
        some { Column.plain "author" .integer with indexed := true } ∧
      (linked "author" "É").index? "AUTHOR" = some 1 := by
  have clean := @SchemaPlan.problems_library "author" "É" rfl
  have faultless : (linked "author" "É").faults = [] :=
    (SchemaPlan.problems_eq_nil_iff.mp clean).2.1 _ (by decide)
  let place : Fin (linked "author" "É").columns.length := ⟨1, Nat.one_lt_two⟩
  have named : Text.sameName (linked "author" "É").columns[place].name "AUTHOR" = true := by
    refine Text.sameName_iff.mpr (String.toList_injective ?_)
    rw [Text.asciiLower, Text.asciiLower, String.toList_map, String.toList_map]
    decide
  rcases (faults_by_place (linked "author" "É")).2.2 faultless "AUTHOR" with
    ⟨i, only, found, index, -⟩ | ⟨absent, -⟩
  · obtain rfl : place = i := (only place).mp named
    exact ⟨faultless, found, index⟩
  · exact absurd ((absent place).symm.trans named) Bool.false_ne_true

end Table

end Tabula
