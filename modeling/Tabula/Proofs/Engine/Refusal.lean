import Tabula.Proofs.Engine.Alteration

/-! # Statements that undo the transaction around them

A row that breaks a constraint undoes the open transaction only where the policy says so: that of the
statement, or where the statement leaves it open, that of a column of its table. Of every other
statement on rows, done or refused, the transaction knows nothing
(`Tabula.Engine.saved_perform`).
-/

namespace Tabula

namespace ConflictPolicy

variable {p q : ConflictPolicy} {cs ds : List Column}

/-- The policy undoes transactions, by itself or in what it leaves to the columns. -/
def Undoes (p : ConflictPolicy) (cs : List Column) : Prop :=
  p = rollback ∨ p = unset ∧ ∃ c ∈ cs, c.onConflict = rollback

/-- What undoes the transaction for some columns does so for more. -/
theorem Undoes.mono (undoes : p.Undoes cs) (subset : ∀ c ∈ cs, c ∈ ds) : p.Undoes ds := by
  rcases undoes with itself | ⟨isUnset, c, member, isRollback⟩
  · exact Or.inl itself
  · exact Or.inr ⟨isUnset, c, subset c member, isRollback⟩

private theorem eq_rollback_of_refusal (undoes : p.refusal = .rollback) : p = rollback := by
  cases p <;> first | rfl | cases undoes

private theorem undoes_of_orElse (ofColumn : q = rollback → ∃ c ∈ cs, c.onConflict = rollback)
    (undoes : p.orElse q = rollback) : p.Undoes cs := by
  unfold orElse at undoes
  split at undoes
  · rename_i isUnset
    exact Or.inr ⟨isUnset, ofColumn undoes⟩
  · exact Or.inl undoes

end ConflictPolicy

/-! ## Constraints -/

section Constraints

open ConflictPolicy

variable {policy : ConflictPolicy} {c : Column} {cs : List Column}

/-- Where a value for a column undoes the transaction, the policy or the column says so. -/
theorem Column.undoes_of_fill {v : Value} (refused : c.fill policy v = .error .rollback) :
    policy.Undoes [c] := by
  unfold Column.fill at refused
  split at refused
  · cases refused
  · dsimp only at refused
    split at refused
    · split at refused
      · split at refused <;> cases refused
      · cases refused
    · refine undoes_of_orElse (fun isRollback => ⟨c, List.mem_singleton.mpr rfl, ?_⟩)
        (eq_rollback_of_refusal (Except.error.inj refused))
      split at isRollback
      · cases isRollback
      · exact isRollback

/-- Where the values of a row undo the transaction, the policy or one of the columns says so. -/
theorem undoes_of_fillRow {looked : List String} {vs : Row}
    (refused : fillRow policy looked cs vs = .error .rollback) : policy.Undoes cs := by
  induction cs generalizing vs with
  | nil => cases refused
  | cons c cs ih =>
      cases vs with
      | nil => cases refused
      | cons v vs =>
          rw [fillRow] at refused
          have later {w : Value} (refused :
              (fillRow policy looked cs vs >>= fun rest => pure (w :: rest)) = .error .rollback) :
              policy.Undoes (c :: cs) := by
            rcases bind_eq_error refused with refused | ⟨rest, -, absurd⟩
            · exact (ih refused).mono fun d => List.mem_cons_of_mem c
            · cases absurd
          split at refused
          · rcases bind_eq_error refused with refused | ⟨w, -, refused⟩
            · refine (Column.undoes_of_fill refused).mono fun d isHead => ?_
              rw [List.mem_singleton.mp isHead]
              exact List.mem_cons_self
            · exact later refused
          · exact later refused

namespace StoredTable

variable {t : StoredTable}

private theorem rollback_of_effectivePolicy (isRollback : c.effectivePolicy = .rollback) :
    c.onConflict = .rollback := by
  unfold Column.effectivePolicy ConflictPolicy.effective at isRollback
  split at isRollback
  · cases isRollback
  · exact isRollback

/-- A rule that undoes transactions has this from the statement or from a column. -/
theorem undoes_of_mem_rules {rowid : Int64} {values : Row} {rule : Rule}
    (member : rule ∈ t.rules policy rowid values) (isRollback : rule.policy = .rollback) :
    policy.Undoes t.definition.columns := by
  obtain ⟨own, isOwn, rfl⟩ := List.mem_map.mp member
  refine undoes_of_orElse (fun ownRollback => ?_) isRollback
  rcases List.mem_cons.mp isOwn with rfl | isOwn
  · have ofRowid : t.rowidPolicy = .rollback := ownRollback
    unfold rowidPolicy at ofRowid
    split at ofRowid
    · rename_i d found
      exact ⟨d, List.mem_of_find?_eq_some found, ofRowid⟩
    · cases ofRowid
  · rcases List.mem_append.mp isOwn with ofIndex | ofColumn
    · obtain ⟨i, -, isRule⟩ := List.mem_filterMap.mp ofIndex
      split at isRule
      · split at isRule
        · obtain rfl := Option.some.inj isRule
          cases ownRollback
        · cases isRule
      · cases isRule
    · obtain ⟨⟨d, place⟩, isColumn, isRule⟩ := List.mem_filterMap.mp ofColumn
      dsimp only at isRule
      split at isRule
      · cases isRule
      · obtain rfl := Option.some.inj isRule
        have placed := List.mem_zipIdx' (List.mem_reverse.mp isColumn)
        exact ⟨d, placed.2 ▸ List.getElem_mem placed.1, rollback_of_effectivePolicy ownRollback⟩

private theorem undoes_of_accept {self : Option Int64} {looked : List String} {row : StoredRow}
    (refused : t.accept policy self looked row = .error .rollback) :
    policy.Undoes t.definition.columns := by
  rcases bind_eq_error refused with refused | ⟨values, -, refused⟩
  · exact undoes_of_fillRow refused
  · dsimp only at refused
    split at refused
    · rename_i rule found
      have isFirm := List.mem_of_find?_eq_some found
      rw [List.partition_eq_filter_filter] at isFirm
      exact undoes_of_mem_rules (List.mem_filter.mp isFirm).1
        (eq_rollback_of_refusal (Except.error.inj refused))
    · cases refused

end StoredTable

end Constraints

/-! ## Statements -/

namespace Contents

variable {before c c' : Contents} {enforced : Bool} {n : String} {policy : ConflictPolicy}

/-- The policy undoes transactions, by itself or in what it leaves to a table of the name. -/
def UndoneBy (c : Contents) (n : String) (p : ConflictPolicy) : Prop :=
  p = .rollback ∨ p = .unset ∧ ∃ t ∈ c.tables, t.isNamed n = true ∧
    ∃ d ∈ t.definition.columns, d.onConflict = .rollback

instance (c : Contents) (n : String) (p : ConflictPolicy) : Decidable (c.UndoneBy n p) :=
  inferInstanceAs (Decidable (_ ∨ _ ∧ _))

/-- Every table is defined as one was before. -/
def Redefines (before c : Contents) : Prop :=
  ∀ t ∈ c.tables, ∃ u ∈ before.tables, t.definition = u.definition

/-- Every table is defined as itself. -/
theorem Redefines.refl (c : Contents) : Redefines c c :=
  fun t member => ⟨t, member, rfl⟩

/-- No table is defined anew by one step after the other. -/
theorem Redefines.trans (first : Redefines before c) (second : Redefines c c') :
    Redefines before c' := by
  intro t member
  obtain ⟨u, between, sameDefinition⟩ := second t member
  obtain ⟨v, isTable, sameBefore⟩ := first u between
  exact ⟨v, isTable, sameDefinition.trans sameBefore⟩

/-- An alteration of rows defines no table anew. -/
theorem Alters.redefines {kept : String → Prop} (alters : Alters kept c c') : Redefines c c' :=
  alters.defined

/-- The table may be spelled otherwise. -/
theorem UndoneBy.congr {m : String} (same : Text.sameName n m = true)
    (undone : c.UndoneBy n policy) : c.UndoneBy m policy := by
  rcases undone with itself | ⟨isUnset, t, isTable, named, ofColumn⟩
  · exact Or.inl itself
  · refine Or.inr ⟨isUnset, t, isTable, ?_, ofColumn⟩
    exact ((Text.sameName_congr named m).trans same)

/-- Tables that are defined as others are leave as much to a policy as these do. -/
theorem UndoneBy.of_redefines (redefines : Redefines before c) (undone : c.UndoneBy n policy) :
    before.UndoneBy n policy := by
  rcases undone with itself | ⟨isUnset, t, isTable, named, ofColumn⟩
  · exact Or.inl itself
  · obtain ⟨u, isBefore, sameDefinition⟩ := redefines t isTable
    refine Or.inr ⟨isUnset, u, isBefore, ?_, sameDefinition ▸ ofColumn⟩
    rwa [StoredTable.isNamed, StoredTable.name, ← sameDefinition]

private theorem undoneBy_of_undoes {t : StoredTable} (redefines : Redefines before c)
    (found : c.table? n = some t) (undoes : policy.Undoes t.definition.columns) :
    before.UndoneBy n policy := by
  refine UndoneBy.of_redefines redefines ?_
  rcases undoes with itself | ⟨isUnset, ofColumn⟩
  · exact Or.inl itself
  · exact Or.inr ⟨isUnset, t, mem_of_table? found, isNamed_of_table? found, ofColumn⟩

private theorem eq_abort_of_write {t : StoredTable} {self : Option Int64} {rowid : Int64}
    {a : Accepted}
    {r : Refusal} (refused : c.write enforced t self rowid a = .error r) : r = .abort := by
  unfold write at refused
  split at refused
  · split at refused <;> cases refused
    rfl
  · cases refused
    rfl

/-- A row of an insertion that undoes the transaction does so by a policy. -/
theorem undoneBy_of_insertRow {p : Progress} {row : Row} (redefines : Redefines before p.contents)
    (refused : insertRow enforced policy n p row = .error .rollback) :
    before.UndoneBy n policy := by
  unfold insertRow at refused
  split at refused
  · cases refused
  · rename_i t found
    split at refused
    · cases refused
    · rename_i rowid placed
      dsimp only at refused
      split at refused
      · cases refused
      · rename_i r notSkip rejected
        obtain rfl := Except.error.inj refused
        have undoes := StoredTable.undoes_of_accept rejected
        rw [definition_counting] at undoes
        exact undoneBy_of_undoes redefines found undoes
      · cases eq_abort_of_write (map_eq_error refused)

/-- A row of an update that undoes the transaction does so by a policy. -/
theorem undoneBy_of_updateRow {assignments : List (String × Value)} {p : Progress} {self : Int64}
    (redefines : Redefines before p.contents)
    (refused : updateRow enforced policy n assignments p self = .error .rollback) :
    before.UndoneBy n policy := by
  have placed {t : StoredTable} (found : p.contents.table? n = some t) (rowid : Int64)
      (values : Row)
      (refused : updateRow.place enforced policy assignments p self t rowid values =
        .error .rollback) : before.UndoneBy n policy := by
    unfold updateRow.place at refused
    dsimp only at refused
    split at refused
    · cases refused
    · rename_i r notSkip rejected
      obtain rfl := Except.error.inj refused
      exact undoneBy_of_undoes redefines found (StoredTable.undoes_of_accept rejected)
    · cases eq_abort_of_write (map_eq_error refused)
  unfold updateRow at refused
  split at refused
  · cases refused
  · rename_i t found
    split at refused
    · cases refused
    · split at refused
      · cases refused
      · split at refused
        · exact placed found _ _ refused
        · cases refused

/-- What a row that undoes the transaction tells holds of a whole statement that does. -/
theorem of_run_eq_rollback {α : Type} {step : Progress → α → Except Refusal Progress} {P : Prop}
    (each : ∀ {p next : Progress} {x : α}, step p x = .ok next →
      Redefines p.contents next.contents)
    (ends : ∀ {p : Progress} {x : α}, Redefines before p.contents →
      step p x = .error .rollback → P)
    {xs : List α} {p q : Progress} (redefines : Redefines before p.contents)
    (refused : Progress.run step xs p = .error (.rollback, q)) : P := by
  induction xs generalizing p with
  | nil => cases refused
  | cons x xs ih =>
      rw [Progress.run] at refused
      cases done : step p x with
      | error r =>
          rw [done] at refused
          obtain ⟨rfl, -⟩ := Prod.mk.inj (Except.error.inj refused)
          exact ends redefines done
      | ok next =>
          rw [done] at refused
          exact ih (redefines.trans (each done)) refused

private theorem run_eq_rollback_of_conclude {given : Orphan → Bool} {keep : Contents → Contents}
    {ran : Except (Refusal × Progress) Progress}
    (reverted : conclude enforced c given keep ran = .reverted) :
    ∃ p, ran = .error (.rollback, p) := by
  unfold conclude at reverted
  split at reverted
  · split at reverted <;> cases reverted
  · split at reverted <;> cases reverted
  · rename_i p
    exact ⟨p, rfl⟩
  · cases reverted
  · cases reverted

/-- What a row that undoes the transaction tells holds where the statement is concluded so. -/
theorem of_conclude_eq_reverted {α : Type} {step : Progress → α → Except Refusal Progress}
    {given : Orphan → Bool} {keep : Contents → Contents} {xs : List α} {P : Prop}
    (each : ∀ {p next : Progress} {x : α}, step p x = .ok next →
      Redefines p.contents next.contents)
    (ends : ∀ {p : Progress} {x : α}, Redefines c p.contents → step p x = .error .rollback → P)
    (reverted : conclude enforced c given keep (Progress.run step xs (.start c)) = .reverted) :
    P := by
  obtain ⟨p, refused⟩ := run_eq_rollback_of_conclude reverted
  have begins : Redefines c (Progress.start c).contents := .refl c
  exact of_run_eq_rollback each ends begins refused

/-- No table is left alone, so nothing is asked of the others. -/
theorem unreferring_none (c : Contents) : Unreferring (fun _ => False) c :=
  fun _ _ _ absurd => absurd.elim

/-- An insertion that undoes the transaction says so itself, or a column of its table does. -/
theorem undoneBy_of_insert {s : InsertStatement} (reverted : c.insert enforced s = .reverted) :
    c.UndoneBy s.table s.policy := by
  unfold insert at reverted
  split at reverted
  · cases reverted
  · rename_i t found
    dsimp only at reverted
    split at reverted
    · cases reverted
    · split at reverted
      · cases reverted
      · refine of_conclude_eq_reverted ?_ ?_ reverted
        · intro p next row done
          exact (alters_insertRow (unreferring_none _) (fun _ absurd => absurd.elim) done).redefines
        · intro p row redefines refused
          exact (undoneBy_of_insertRow redefines refused).congr (isNamed_of_table? found)

private theorem undoneBy_of_update {s : UpdateStatement}
    (reverted : c.update enforced s = .reverted) : c.UndoneBy s.table s.policy := by
  unfold update at reverted
  split at reverted
  · cases reverted
  · rename_i t found
    split at reverted
    · cases reverted
    · refine of_conclude_eq_reverted ?_ ?_ reverted
      · intro p next row done
        exact (alters_updateRow (unreferring_none _) (fun _ absurd => absurd.elim) done).redefines
      · intro p row redefines refused
        exact (undoneBy_of_updateRow redefines refused).congr (isNamed_of_table? found)

private theorem delete_ne_reverted (c : Contents) (s : DeleteStatement) :
    c.delete enforced s ≠ .reverted := by
  intro reverted
  unfold delete at reverted
  split at reverted
  · cases reverted
  · split at reverted
    · cases reverted
    · dsimp only at reverted
      split at reverted
      · cases reverted
      · split at reverted <;> cases reverted

end Contents

namespace RowStatement

/-- The policy of the statement. A deletion violates no constraint by itself, and where rows keep
others from going it is undone alone. -/
def policy : RowStatement → ConflictPolicy
  | insert s => s.policy
  | update s => s.policy
  | delete _ => .abort

/-- A refused row may undo the transaction around the statement. -/
def MayUndo (s : RowStatement) (c : Contents) : Prop :=
  c.UndoneBy s.table s.policy

instance (s : RowStatement) (c : Contents) : Decidable (s.MayUndo c) :=
  inferInstanceAs (Decidable (c.UndoneBy s.table s.policy))

/-- A statement that may undo the transaction now might have done so before. -/
theorem MayUndo.of_redefines {s : RowStatement} {before c : Contents}
    (redefines : Contents.Redefines before c) (mayUndo : s.MayUndo c) : s.MayUndo before :=
  Contents.UndoneBy.of_redefines redefines mayUndo

private theorem mayUndo_of_effect {s : RowStatement} {enforced : Bool} {c : Contents}
    (reverted : s.effect enforced c = .reverted) : s.MayUndo c := by
  cases s with
  | insert s => exact Contents.undoneBy_of_insert reverted
  | update s => exact Contents.undoneBy_of_update reverted
  | delete s => exact absurd reverted (Contents.delete_ne_reverted c s)

end RowStatement

namespace Engine

open Contents

/-- The open transaction does not notice a statement that may not undo it, and no table is defined
anew. -/
theorem saved_perform {e : Engine} {s : RowStatement} (mild : ¬s.MayUndo e.contents) :
    (e.perform s).2.saved = e.saved ∧ Redefines e.contents (e.perform s).2.contents := by
  have spares : Spares (fun _ => False) s.table := fun _ absurd => absurd.elim
  rw [perform_eq_change, change]
  cases ended : s.effect e.enforced e.contents with
  | done after changed last =>
      exact ⟨rfl, (alters_effect (unreferring_none _) spares (congrArg left? ended)).redefines⟩
  | refused after =>
      exact ⟨rfl, (alters_effect (unreferring_none _) spares (congrArg left? ended)).redefines⟩
  | reverted => exact absurd (RowStatement.mayUndo_of_effect ended) mild

end Engine

end Tabula
