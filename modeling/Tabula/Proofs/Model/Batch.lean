import Tabula.Proofs.Model.Binding

/-! # Batches of insertions

Many records are inserted by several statements, since a statement has room for so many values. The
statements are those of the slices of the records, full ones up to the last, and each of them has a
record and room for it (`Tabula.Insertion.batches_slices`). Nothing is lost or repeated, and the order
is that of the records.
-/

namespace Tabula

/-! ## Pieces of a list -/

section Pieces

variable {α : Type} {size : Nat}

/-- The number of pieces of a list, all but the last of them full. -/
theorem length_pieces (roomy : 0 < size) (xs : List α) :
    (pieces size xs).length = (xs.length + size - 1) / size := by
  induction xs using pieces.induct size with
  | case1 xs empty =>
      obtain rfl := List.isEmpty_iff.mp empty
      have noPiece : ([] : List α).length + size - 1 < size := by
        rw [List.length_nil]
        omega
      rw [pieces, if_pos empty, Nat.div_eq_of_lt noPiece, List.length_nil]
  | case2 xs nonempty noRoom => omega
  | case3 xs nonempty room ih =>
      have hasFirst : 0 < xs.length :=
        List.length_pos_iff.mpr fun isNil => nonempty (List.isEmpty_iff.mpr isNil)
      rw [pieces, if_neg nonempty, if_neg room, List.length_cons, ih, List.length_drop]
      by_cases more : size ≤ xs.length
      · have whole : xs.length + size - 1 = xs.length - size + size - 1 + size := by omega
        rw [whole, Nat.add_div_right _ roomy]
      · have last : xs.length - size + size - 1 = size - 1 := by omega
        have only : xs.length + size - 1 = xs.length - 1 + size := by omega
        rw [last, only, Nat.add_div_right _ roomy, Nat.div_eq_of_lt (by omega),
          Nat.div_eq_of_lt (by omega)]

/-- A piece has something, and no more than the size. -/
theorem length_of_mem_pieces (roomy : 0 < size) {xs p : List α} (member : p ∈ pieces size xs) :
    p ≠ [] ∧ p.length ≤ size := by
  induction xs using pieces.induct size with
  | case1 xs empty =>
      rw [pieces, if_pos empty] at member
      cases member
  | case2 xs nonempty noRoom => omega
  | case3 xs nonempty room ih =>
      rw [pieces, if_neg nonempty, if_neg room] at member
      rcases List.mem_cons.mp member with rfl | later
      · refine ⟨fun isNil => ?_, List.length_take_le size xs⟩
        rcases List.take_eq_nil_iff.mp isNil with noRoom | isNil
        · exact room noRoom
        · exact nonempty (List.isEmpty_iff.mpr isNil)
      · exact ih later

end Pieces

namespace Insertion

variable {m : Model} (i : Insertion m)

/-- There is room for a record in every statement. -/
theorem rowsPerStatement_pos : 0 < i.rowsPerStatement :=
  Nat.lt_of_lt_of_le Nat.zero_lt_one (Nat.le_max_left 1 _)

/-- A statement with all the records that it may have has no more values than allowed, unless one
record alone has more. -/
theorem rowsPerStatement_mul_le :
    i.rowsPerStatement * i.columns.length ≤ max maxParams i.columns.length := by
  rw [rowsPerStatement]
  rcases Nat.eq_zero_or_pos i.columns.length with noColumn | written
  · rw [noColumn, Nat.mul_zero]
    exact Nat.zero_le _
  · rw [Nat.max_eq_right written]
    by_cases fits : i.columns.length ≤ maxParams
    · have room : 1 ≤ maxParams / i.columns.length := Nat.div_pos fits written
      rw [Nat.max_eq_right room]
      exact Nat.le_trans (Nat.div_mul_le_self maxParams _) (Nat.le_max_left _ _)
    · have noRoom : maxParams / i.columns.length = 0 := Nat.div_eq_of_lt (by omega)
      rw [noRoom, Nat.max_eq_left (Nat.zero_le 1), Nat.one_mul]
      exact Nat.le_max_right _ _

/-- The values of a record are those of its cells. -/
theorem row_eq (entry : m.Entry) : i.row entry = (i.cells entry).map (·.2) := rfl

/-- A record has a value for each column that is written. -/
theorem length_row (entry : m.Entry) : (i.row entry).length = i.columns.length := by
  rw [row_eq, List.length_map, ← i.map_cells_fst entry, List.length_map]

private theorem params_insert (entries : List m.Entry) :
    (i.insert entries).statement.params = entries.flatMap i.row := by
  rw [List.flatMap_def]
  rfl

private theorem length_params_insert (entries : List m.Entry) :
    (i.insert entries).statement.params.length = entries.length * i.columns.length := by
  rw [params_insert]
  induction entries with
  | nil => rw [List.flatMap_nil, List.length_nil, List.length_nil, Nat.zero_mul]
  | cons entry entries ih =>
      rw [List.flatMap_cons, List.length_append, ih, length_row, List.length_cons, Nat.succ_mul,
        Nat.add_comm]

variable {i}

private theorem isEmpty_columns (written : 0 < i.columns.length) : i.columns.isEmpty = false :=
  List.isEmpty_eq_false_iff.mpr (List.length_pos_iff.mp written)

private theorem batches_eq (written : 0 < i.columns.length) (entries : List m.Entry) :
    i.batches entries = (pieces i.rowsPerStatement entries).map i.insert := by
  rw [batches, isEmpty_columns written, if_neg Bool.false_ne_true]

private theorem insertAll?_eq (written : 0 < i.columns.length) {slice : List m.Entry}
    (nonempty : slice ≠ []) : i.insertAll? slice = some (i.insert slice) := by
  rw [insertAll?, isEmpty_columns written, List.isEmpty_eq_false_iff.mpr nonempty, Bool.or_self,
    if_neg Bool.false_ne_true]

private theorem text_insert (written : 0 < i.columns.length) (entries : List m.Entry) :
    (i.insert entries).statement.text =
      "INSERT " ++ policyText i.policy ++ "INTO " ++ quoted m.table.name ++
        (" (" ++ listed (i.columns.map fun c => quoted c.name) ++ ") VALUES " ++
          listed (List.replicate entries.length
            ("(" ++ listed (List.replicate i.columns.length "?") ++ ")"))) := by
  have named : (i.columns.map (·.name)).isEmpty = false := by
    rw [List.isEmpty_map, isEmpty_columns written]
  rw [InsertStatement.statement, insert, InsertStatement.textFor, named,
    if_neg Bool.false_ne_true, List.map_map, List.length_map, List.length_map]
  rfl

variable (i)

/-- **Batches.** As many statements as are needed insert all records, and none if no column is written.
Each is the one statement for a slice of the records, with a group of placeholders for each record of
the slice. The slices have a record at least and no more than fit, and together they are the records
in their order, so the values of the statements together are those of the records in the columns that
are written. -/
theorem batches_slices (entries : List m.Entry) :
    i.rowsPerStatement = max 1 (999 / max 1 i.columns.length) ∧
    (i.columns.length = 0 → i.batches entries = []) ∧
    (0 < i.columns.length →
      (i.batches entries).length =
        (entries.length + i.rowsPerStatement - 1) / i.rowsPerStatement ∧
      (∀ entry ∈ entries, (i.cells entry).map (·.1) = i.columns) ∧
      ((i.batches entries).flatMap (·.statement.params) =
        entries.flatMap fun entry => (i.cells entry).map (·.2)) ∧
      ∃ slices : List (List m.Entry), slices.flatten = entries ∧
        (i.batches entries).map some = slices.map i.insertAll? ∧
        ∀ slice ∈ slices, 1 ≤ slice.length ∧ slice.length ≤ i.rowsPerStatement ∧
          ∀ s ∈ i.insertAll? slice,
            s.statement.text =
              "INSERT " ++ policyText i.policy ++ "INTO " ++ quoted m.table.name ++
                (" (" ++ listed (i.columns.map fun c => quoted c.name) ++ ") VALUES " ++
                  listed (List.replicate slice.length
                    ("(" ++ listed (List.replicate i.columns.length "?") ++ ")"))) ∧
            s.statement.params = (slice.flatMap fun entry => (i.cells entry).map (·.2)) ∧
            s.statement.params.length = slice.length * i.columns.length ∧
            s.statement.params.length ≤ max 999 i.columns.length) := by
  refine ⟨rfl, fun unwritten => ?_, fun written => ⟨?_, fun entry _ => i.map_cells_fst entry, ?_,
    pieces i.rowsPerStatement entries, flatten_pieces _ entries, ?_, fun slice member => ?_⟩⟩
  · rw [batches, List.length_eq_zero_iff.mp unwritten]
    rfl
  · rw [batches_eq written, List.length_map, length_pieces i.rowsPerStatement_pos]
  · calc (i.batches entries).flatMap (·.statement.params)
      _ = (pieces i.rowsPerStatement entries).flatMap fun slice => slice.flatMap i.row := by
        rw [batches_eq written, List.flatMap_map]
        exact List.flatMap_congr fun slice _ => i.params_insert slice
      _ = (pieces i.rowsPerStatement entries).flatten.flatMap i.row := by
        rw [List.flatten_eq_flatMap, List.flatMap_assoc]
        rfl
      _ = entries.flatMap fun entry => (i.cells entry).map (·.2) := by
        rw [flatten_pieces]
        rfl
  · rw [batches_eq written, List.map_map]
    refine List.map_congr_left fun slice member => ?_
    exact (insertAll?_eq written (length_of_mem_pieces i.rowsPerStatement_pos member).1).symm
  · obtain ⟨nonempty, most⟩ := length_of_mem_pieces i.rowsPerStatement_pos member
    refine ⟨List.length_pos_iff.mpr nonempty, most, fun s isAll => ?_⟩
    rw [insertAll?_eq written nonempty] at isAll
    obtain rfl := Option.some.inj isAll
    refine ⟨text_insert written slice, i.params_insert slice, i.length_params_insert slice, ?_⟩
    rw [length_params_insert]
    exact Nat.le_trans (Nat.mul_le_mul_right _ most) i.rowsPerStatement_mul_le

/-- With their keys, records of two columns go by 499 into a statement. -/
theorem batches_slices_awkward :
    let i : Insertion Model.awkward := { omitsAutoKey := false }
    let entry : Model.awkward.Entry := (.integer 7, "new", ())
    i.columns.length = 2 ∧ i.rowsPerStatement = 499 ∧
      (i.batches (List.replicate 998 entry)).length = 2 ∧
      (i.batches (List.replicate 999 entry)).length = 3 := by
  intro i entry
  have columns : i.columns.length = 2 := by decide +kernel
  have written : 0 < i.columns.length := by rw [columns]; decide
  have most : i.rowsPerStatement = 499 := by
    rw [(batches_slices i []).1, columns]
    rfl
  have count (n : Nat) : (i.batches (List.replicate n entry)).length = (n + 499 - 1) / 499 := by
    rw [((batches_slices i _).2.2 written).1, List.length_replicate, most]
  exact ⟨columns, most, count 998, count 999⟩

end Insertion

end Tabula
