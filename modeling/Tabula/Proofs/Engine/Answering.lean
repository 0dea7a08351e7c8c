import Tabula.Engine.Change
import Tabula.Engine.Reading
import Tabula.Proofs.Model.Binding
import Tabula.Proofs.Query.ChangeText

/-! # Statements through their texts

What a database answers to a query that was read off a text: the rows that meet the clause, in order,
and of them those within the bounds (`Tabula.Sql.Query.rows?`), or their number
(`Tabula.Sql.Query.count?`); and what becomes of it by a change that was read off a text
(`Tabula.Sql.Change.effect?`). This is what the database makes of the statement that the text is of
(`Tabula.Contents.rows?_of_reads`, `Tabula.Contents.count?_of_reads`,
`Tabula.Contents.effect?_of_reads_update` and its siblings), so nothing is lost on the way through the
text. What is built of a model is always such a statement (`Tabula.Update.exists_change`,
`Tabula.Deletion.exists_change`).
-/

namespace Tabula

open Sql

namespace Sql

/-! ## Answers -/

/-- Whether the engine takes the number for a whole one. -/
def isStored (n : Int) : Bool :=
  -twoTo 63 ≤ n && n < twoTo 63

/-- The rows within bounds, nothing if a bound is refused. No row is within a first bound of zero,
whatever the other; a negative one does not bound, and negative rows to leave out are none. -/
def within? {α : Type} (bounds : Option (Int × Option Int)) (rows : List α) : Option (List α) :=
  match bounds with
  | none => some rows
  | some (limit, offset) =>
    if limit = 0 then some []
    else if !isStored limit || !offset.all isStored then none
    else
      let rest := rows.drop (offset.getD 0).toNat
      some (if limit < 0 then rest else rest.take limit.toNat)

namespace Query

/-- The conditions that a clause says. -/
def conditions? : Option Expr → Option (List Condition)
  | none => some []
  | some e => e.condition?.map ([·])

/-- The rows that a database answers to a query that was asked so, by a plan; nothing if it refuses
the query or is to count. -/
def rows? (c : Contents) (plan : Plan) (asked : Statement) (q : Query (Option Expr)) :
    Option (List Row) :=
  match q.columns, conditions? q.clause with
  | some columns, some conditions =>
    (c.readAll plan asked ⟨q.table, columns, conditions, q.orders, none, none⟩).bind
      (within? q.bounds)
  | _, _ => none

/-- The number of rows that a database answers, nothing if it refuses the query or is to read. -/
def count? (c : Contents) (q : Query (Option Expr)) : Option Nat :=
  match q.columns, conditions? q.clause with
  | none, some conditions => c.count ⟨q.table, conditions⟩
  | _, _ => none

end Query

/-- What becomes of a database by a change; nothing if no conditions are told by its clause. -/
def Change.effect? (c : Contents) (enforced : Bool) : Change → Option Effect
  | insert s => some (c.insert enforced s)
  | update policy table assignments clause =>
    (Query.conditions? clause).map fun cs => c.update enforced ⟨policy, table, assignments, cs⟩
  | delete table clause =>
    (Query.conditions? clause).map fun cs => c.delete enforced ⟨table, cs⟩

end Sql

/-! ## Windows -/

private theorem isStored_toNat (n : UInt64) : isStored n.toNat = isCount n := by
  have least : -(twoTo 63 : Int) ≤ n.toNat := by
    have := twoTo_pos 63
    omega
  rw [isStored, decide_eq_true least, Bool.true_and, isCount]
  exact decide_eq_decide.mpr Int.ofNat_lt

/-- A window is what its bounds say. -/
theorem within?_bounds {α : Type} (limit offset : Option UInt64) (rows : List α) :
    within? (SelectStatement.bounds limit offset) rows = window? limit offset rows := by
  cases limit with
  | none =>
      cases offset with
      | none => rfl
      | some o =>
          have notZero : ¬(-1 : Int) = 0 := by decide
          have negative : (-1 : Int) < 0 := by decide
          have noWindow : ¬(none : Option UInt64) = some 0 := nofun
          have isLimit : isStored (-1) = true := by decide +kernel
          rw [SelectStatement.bounds, within?, window?, if_neg notZero, if_neg noWindow, isLimit,
            Option.all_some, Option.all_some, Option.all_none, isStored_toNat]
          dsimp only
          rw [if_pos negative]
          rfl
  | some l =>
      by_cases isZero : l = 0
      · have noRows : (l.toNat : Int) = 0 := by
          rw [isZero]
          rfl
        have noWindow : some l = some 0 := congrArg some isZero
        cases offset <;>
          rw [SelectStatement.bounds, within?, window?, if_pos noRows, if_pos noWindow]
      · have notZero : ¬(l.toNat : Int) = 0 := fun same =>
          isZero (UInt64.toNat_inj.mp (Int.ofNat_eq_zero.mp same))
        have noWindow : ¬some l = some 0 := fun same => isZero (Option.some.inj same)
        have notNegative : ¬(l.toNat : Int) < 0 := Int.not_lt.mpr (Int.natCast_nonneg _)
        cases offset with
        | none =>
            rw [SelectStatement.bounds, within?, window?, if_neg notZero, if_neg noWindow,
              isStored_toNat]
            dsimp only
            rw [if_neg notNegative]
            rfl
        | some o =>
            rw [SelectStatement.bounds, within?, window?, if_neg notZero, if_neg noWindow,
              isStored_toNat, Option.all_some, isStored_toNat]
            dsimp only
            rw [if_neg notNegative]
            rfl

/-! ## Conditions -/

namespace Conditions

/-- A table knows the conjunction of conditions just if it knows each of them. -/
theorem knows_eq (t : StoredTable) (cs : List Condition) :
    t.knows cs = (together cs).all (·.isKnown t.definition) := by
  have folded : ∀ (cs : List Condition) (c : Condition),
      (cs.foldl .both c).isKnown t.definition = (c :: cs).all (·.isKnown t.definition) := by
    intro cs
    induction cs with
    | nil => exact fun c => (Bool.and_true _).symm
    | cons d cs ih =>
        intro c
        rw [List.foldl_cons, ih, List.all_cons, List.all_cons, List.all_cons, Condition.isKnown,
          Bool.and_assoc]
  cases cs with
  | nil => rfl
  | cons c cs => exact (folded cs c).symm

/-- Conditions and their conjunction have the same operands. -/
theorem operands_eq (cs : List Condition) : operands cs = (together cs).elim [] (·.operands) := by
  have folded : ∀ (cs : List Condition) (c : Condition),
      (cs.foldl .both c).operands = c.operands ++ operands cs := by
    intro cs
    induction cs with
    | nil => exact fun c => (List.append_nil _).symm
    | cons d cs ih =>
        intro c
        rw [List.foldl_cons, ih, Condition.operands, operands, operands, List.flatMap_cons,
          List.append_assoc]
  cases cs with
  | nil => rfl
  | cons c cs => exact (folded cs c).symm

/-- Conditions that engines cannot tell apart: of the same depth and with as many operands, known to
the same tables, and met by the same rows. -/
structure Alike (cs ds : List Condition) : Prop where
  isShallow : isShallow cs = isShallow ds
  operands : operands cs = operands ds
  knows : ∀ t : StoredTable, t.knows cs = t.knows ds
  filter : ∀ t : StoredTable, t.filter cs = t.filter ds

/-- Conditions with the same conjunction. -/
theorem Alike.of_together {cs ds : List Condition} (same : together cs = together ds) :
    Alike cs ds where
  isShallow := congrArg (Option.all _) same
  operands := by rw [operands_eq, same, operands_eq]
  knows t := by rw [knows_eq, same, knows_eq]
  filter t := List.filter_congr fun r _ => by rw [meets_eq, same, meets_eq]

/-- What conditions say as one. -/
theorem exists_conditions? {cs : List Condition} (counted : ∀ c ∈ cs, c.Counted) :
    ∃ ds, Query.conditions? ((together cs).map (·.expr)) = some ds ∧ Alike ds cs := by
  cases joined : together cs with
  | none => exact ⟨[], rfl, .of_together joined.symm⟩
  | some c =>
      have isOne : Query.conditions? (some c.expr) = some [c] := by
        rw [Query.conditions?, Expr.condition?_expr (counted_together counted c joined)]
        rfl
      exact ⟨[c], isOne, .of_together joined.symm⟩

end Conditions

namespace Contents

variable {c : Contents}

/-- What is read depends neither on the window nor on how the conditions are told. -/
theorem readAll_congr {plan : Plan} {asked : Statement} {s : SelectStatement} {ds : List Condition}
    (alike : Conditions.Alike ds s.conditions) (limit offset : Option UInt64) :
    c.readAll plan asked ⟨s.table, s.columns, ds, s.orders, limit, offset⟩ =
      c.readAll plan asked s := by
  have taken : SelectStatement.isTaken ⟨s.table, s.columns, ds, s.orders, limit, offset⟩ =
      s.isTaken := by
    rw [SelectStatement.isTaken, alike.isShallow, alike.operands, SelectStatement.isTaken]
  unfold readAll
  rw [taken]
  dsimp only
  cases c.table? s.table with
  | none => rfl
  | some t =>
      dsimp only
      rw [alike.knows, alike.filter]

/-- **Through the text.** What a database answers to a selection is what it answers to the query
that the text of the selection is read as, whatever the plan. -/
theorem rows?_of_reads {plan : Plan} {s : SelectStatement} (columns : s.columns ≠ [])
    (counted : ∀ c ∈ s.conditions, c.Counted) {q : Query (Option Expr)}
    (reads : ReadsQuery s.statement.text s.statement.params q) :
    q.rows? c plan s.statement = c.select s plan := by
  obtain rfl := (SelectStatement.readsQuery_text_iff columns counted q).mp reads
  obtain ⟨ds, isConditions, alike⟩ := Conditions.exists_conditions? counted
  rw [Query.rows?]
  dsimp only
  rw [isConditions]
  dsimp only
  rw [readAll_congr alike none none, select]
  exact congrArg _ (funext fun rows => within?_bounds s.limit s.offset rows)

/-- What a database answers to a count is what it answers to the query that the text of the count is
read as. -/
theorem count?_of_reads {s : CountStatement} (counted : ∀ c ∈ s.conditions, c.Counted)
    {q : Query (Option Expr)} (reads : ReadsQuery s.statement.text s.statement.params q) :
    q.count? c = c.count s := by
  obtain rfl := (CountStatement.readsQuery_text_iff counted q).mp reads
  obtain ⟨ds, isConditions, alike⟩ := Conditions.exists_conditions? counted
  have taken : CountStatement.isTaken ⟨s.table, ds⟩ = s.isTaken := by
    rw [CountStatement.isTaken, alike.isShallow, alike.operands, CountStatement.isTaken]
  rw [Query.count?]
  dsimp only
  rw [isConditions]
  dsimp only
  unfold count
  rw [taken]
  dsimp only
  cases c.table? s.table with
  | none => rfl
  | some t =>
      dsimp only
      rw [alike.knows, alike.filter]

/-- What becomes of a database by an insertion becomes of it by the change that the text of the
insertion is read as. -/
theorem effect?_of_reads_insert {enforced : Bool} {s : InsertStatement}
    (rows : s.columns ≠ [] → s.rows ≠ []) (full : ∀ row ∈ s.rows, row.length = s.columns.length)
    {change : Change} (reads : ReadsChange s.statement.text s.statement.params change) :
    change.effect? c enforced = some (c.insert enforced s) := by
  obtain rfl := (InsertStatement.readsChange_text_iff rows full change).mp reads
  have same : c.insert enforced { s with rows := if s.columns.isEmpty then [[]] else s.rows } =
      c.insert enforced s := by
    unfold insert
    cases s.columns.isEmpty with
    | true => simp only [if_true, Bool.not_true, Bool.and_false]
    | false => rfl
  rw [Change.effect?, same]

/-- What becomes of a database by an update becomes of it by the change that the text of the update is
read as. -/
theorem effect?_of_reads_update {enforced : Bool} {s : UpdateStatement} (assigns : s.assignments ≠ [])
    (counted : ∀ c ∈ s.conditions, c.Counted) {change : Change}
    (reads : ReadsChange s.statement.text s.statement.params change) :
    change.effect? c enforced = some (c.update enforced s) := by
  obtain rfl := (UpdateStatement.readsChange_text_iff assigns counted change).mp reads
  obtain ⟨ds, isConditions, alike⟩ := Conditions.exists_conditions? counted
  have taken : UpdateStatement.isTaken ⟨s.policy, s.table, s.assignments, ds⟩ = s.isTaken := by
    rw [UpdateStatement.isTaken, UpdateStatement.statement, alike.isShallow, alike.operands,
      UpdateStatement.isTaken, UpdateStatement.statement]
  rw [Change.effect?, isConditions, Option.map_some, update, taken, update]
  dsimp only
  simp only [alike.knows, alike.filter]

/-- What becomes of a database by a deletion becomes of it by the change that the text of the deletion
is read as. -/
theorem effect?_of_reads_delete {enforced : Bool} {s : DeleteStatement}
    (counted : ∀ c ∈ s.conditions, c.Counted) {change : Change}
    (reads : ReadsChange s.statement.text s.statement.params change) :
    change.effect? c enforced = some (c.delete enforced s) := by
  obtain rfl := (DeleteStatement.readsChange_text_iff counted change).mp reads
  obtain ⟨ds, isConditions, alike⟩ := Conditions.exists_conditions? counted
  have taken : DeleteStatement.isTaken ⟨s.table, ds⟩ = s.isTaken := by
    rw [DeleteStatement.isTaken, alike.isShallow, alike.operands, DeleteStatement.isTaken]
  rw [Change.effect?, isConditions, Option.map_some, delete, taken, delete]
  dsimp only
  simp only [alike.knows, alike.filter]

end Contents

/-! ## Changes of a model -/

section Built

variable {m : Model} (c : Contents) (enforced : Bool)

/-- The conditions of targets have as many operands as their comparisons ask for. -/
theorem Target.counted_conditions (ts : List (Target m)) :
    ∀ condition ∈ ts.map (·.condition), condition.Counted := by
  intro condition member
  obtain ⟨t, -, rfl⟩ := List.mem_map.mp member
  exact t.counted_condition

/-- The text of an update of a model that assigns something has one reading, and what becomes of a
database by it is what the update makes of it. -/
theorem Update.exists_change {u : Update m} {s : UpdateStatement} (built : u.statement? = some s)
    (assigns : s.assignments ≠ []) :
    ∃ change : Change,
      (∀ other, ReadsChange s.statement.text s.statement.params other ↔ other = change) ∧
        change.effect? c enforced = some (c.update enforced s) := by
  have counted : ∀ condition ∈ s.conditions, condition.Counted := by
    unfold Update.statement? at built
    split at built
    · obtain rfl := Option.some.inj built
      exact Target.counted_conditions u.targets
    · cases built
  have reading := UpdateStatement.readsChange_text_iff assigns counted
  exact ⟨_, reading, Contents.effect?_of_reads_update assigns counted ((reading _).mpr rfl)⟩

/-- The text of a deletion of a model has one reading, and what becomes of a database by it is what
the deletion makes of it. -/
theorem Deletion.exists_change {d : Deletion m} {s : DeleteStatement} (built : d.statement? = some s) :
    ∃ change : Change,
      (∀ other, ReadsChange s.statement.text s.statement.params other ↔ other = change) ∧
        change.effect? c enforced = some (c.delete enforced s) := by
  have counted : ∀ condition ∈ s.conditions, condition.Counted := by
    unfold Deletion.statement? at built
    split at built
    · obtain rfl := Option.some.inj built
      exact Target.counted_conditions d.targets
    · cases built
  have reading := DeleteStatement.readsChange_text_iff counted
  exact ⟨_, reading, Contents.effect?_of_reads_delete counted ((reading _).mpr rfl)⟩

end Built

end Tabula
