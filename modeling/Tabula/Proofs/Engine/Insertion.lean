import Tabula.Proofs.Engine.Keyed

/-! # The row that an insertion leaves

A row that is inserted is there afterwards, once, at the position that the insertion answers, and
holds what its columns made of the given values (`Tabula.Contents.row_of_insert`).
-/

namespace Tabula

namespace Contents

variable {c c' : Contents} {n : String} {t : StoredTable} {enforced : Bool}

/-- The row that is written is the only one at its position. -/
theorem row_of_write {rowid : Int64} {a : Accepted} (found : c.table? t.name = some t)
    (done : c.write enforced t none rowid a = .ok c') :
    ∃ t', c'.table? t.name = some t' ∧ t'.definition = t.definition ∧
      t'.rows.filter (·.rowid == rowid) = [⟨rowid, a.values⟩] := by
  obtain ⟨next, removed, admitted, rfl⟩ := write_eq_ok done
  obtain ⟨u, foundU, sameDefinition⟩ := (keepsKeys_remove removed).table? found
  have foundAfter := table?_modify (c := next) (m := t.name) (n := t.name)
    (f := fun u => (u.erase []).put ⟨rowid, a.values⟩) fun _ _ => rfl
  rw [foundU, Option.map_some, if_pos (isNamed_of_table? foundU)] at foundAfter
  refine ⟨_, foundAfter, sameDefinition, ?_⟩
  refine StoredTable.filter_place (beq_self_eq_true rowid) fun r member => ?_
  rw [erase_nil] at member
  have apart := StoredTable.apart_of_admits (admitted u foundU) member nofun
  exact beq_eq_false_iff_ne.mpr apart.rowid.symm

/-- Where references are not enforced, an accepted row is written. -/
theorem write_of_accept {policy : ConflictPolicy} {self : Option Int64} {looked : List String}
    {row : StoredRow} {a : Accepted} (found : c.table? t.name = some t)
    (accepted : t.accept policy self looked row = .ok a) :
    c.write false t self row.rowid a =
      .ok ((c.erase (a.displaced.map fun r => ⟨t.name, r⟩)).modify t.name fun u =>
        (u.erase self.toList).put ⟨row.rowid, a.values⟩) := by
  have going : ((a.displaced.map fun r => RowPlace.mk t.name r).filter (·.table == t.name)).map
      (·.rowid) = a.displaced := by
    rw [List.filter_map]
    simp [Function.comp_def]
  have admitted : ((c.erase (a.displaced.map fun r => ⟨t.name, r⟩)).table? t.name).all
      (·.admits self ⟨row.rowid, a.values⟩) = true := by
    rw [table?_erase, found, Option.map_some, Option.all_some, going]
    exact StoredTable.admits_erase accepted
  unfold write remove
  rw [Bool.not_false, Bool.true_or, if_pos rfl]
  exact if_pos admitted

/-- An insertion that counts a row leaves it at the position that it tells. -/
theorem row_of_insertRow {policy : ConflictPolicy} {p next : Progress} {given : Row}
    (found : p.contents.table? n = some t)
    (done : insertRow enforced policy n p given = .ok next) (counted : p.changed < next.changed) :
    ∃ rowid stored, t.rowidOf? given = some rowid ∧ next.last = some rowid ∧
      fillRow policy t.definition.columnNames t.definition.columns (t.withRowid rowid given) =
        .ok stored ∧
      ∃ t', next.contents.table? n = some t' ∧ t'.definition = t.definition ∧
        t'.rows.filter (·.rowid == rowid) = [⟨rowid, stored⟩] := by
  obtain ⟨u, rowid, foundU, placed, ofRow⟩ := insertRow_eq_ok done
  obtain rfl := Option.some.inj (found.symm.trans foundU)
  rcases ofRow with rfl | ⟨a, after, accepted, written, rfl⟩
  · exact absurd counted (Nat.lt_irrefl _)
  · have sameDefinition := definition_counting t rowid
    have sameName : (t.counting rowid).name = t.name := congrArg Table.name sameDefinition
    have counts : (p.contents.modify t.name fun _ => t.counting rowid).table?
        (t.counting rowid).name = some (t.counting rowid) := by
      rw [sameName]
      refine table?_modify_const (table?_name found) ?_
      rw [StoredTable.isNamed, sameName, Text.sameName_refl]
    have filled := (StoredTable.accept_eq_ok accepted).1
    rw [sameDefinition] at filled
    obtain ⟨t', found', definition, rows⟩ := row_of_write counts written
    rw [sameName, table?_congr (isNamed_of_table? found)] at found'
    exact ⟨rowid, a.values, placed, rfl, filled, t', found', definition.trans sameDefinition, rows⟩

/-- **An insertion of one row leaves it at the position that it answers**: the only row there, with
what the columns made of the given values. Without columns it is a row of nothing. -/
theorem row_of_insert {s : InsertStatement} {row : Row} {changed : Nat} {last : Option Int64}
    (found : c.table? s.table = some t)
    (one : (if s.columns.isEmpty then [[]] else s.rows) = [row])
    (done : c.insert enforced s = .done c' changed last) (counted : 0 < changed) :
    ∃ given rowid stored, t.definition.columns.mapM (insertedValue? s.columns row) = some given ∧
      t.rowidOf? given = some rowid ∧ last = some rowid ∧
      fillRow s.policy t.definition.columnNames t.definition.columns (t.withRowid rowid given) =
        .ok stored ∧
      ∃ t', c'.table? s.table = some t' ∧ t'.definition = t.definition ∧
        t'.rows.filter (·.rowid == rowid) = [⟨rowid, stored⟩] := by
  unfold insert at done
  simp only [found, one, List.mapM_cons, List.mapM_nil] at done
  split at done
  · cases done
  · cases given : t.definition.columns.mapM (insertedValue? s.columns row) with
    | none =>
        rw [given] at done
        cases done
    | some values =>
        rw [given] at done
        have started : (Progress.start c).contents.table? t.name = some t := table?_name found
        change conclude enforced c _ _ (Progress.run (insertRow enforced s.policy t.name) [values]
          (.start c)) = _ at done
        rw [Progress.run] at done
        cases inserted : insertRow enforced s.policy t.name (.start c) values with
        | error refusal =>
            rw [inserted] at done
            cases refusal <;> unfold conclude at done
            · cases done
            · cases done
            · dsimp only at done
              split at done <;> cases done
            · cases done
        | ok next =>
            simp only [inserted, Progress.run, conclude] at done
            split at done
            · cases done
            · cases done
              obtain ⟨rowid, stored, placed, last, filled, t', found', definition, rows⟩ :=
                row_of_insertRow started inserted counted
              rw [table?_congr (isNamed_of_table? found)] at found'
              exact ⟨values, rowid, stored, rfl, placed, last, filled, t', found', definition, rows⟩

end Contents

end Tabula
