import Tabula.Proofs.Model.Binding
import Tabula.Proofs.Schema.TableText

/-! # What changes assign, and to which rows

A statement of an update or a deletion is about the rows that the calls say, and never by omission
about every row: an update always has a condition, and a deletion has none only if it is said to be of
everything (`Tabula.Model.statements_targeted`). What an update assigns is less certain. A record gives
a value to every column but the key, so a record of nothing but a key assigns nothing
(`Tabula.Model.statements_targeted_counter`); and a column that is assigned by itself can be the key
(`Tabula.Model.assigned_of_calls`).
-/

namespace Tabula

variable {m : Model}

namespace Conditions

private theorem text_of_ne_nil {cs : List Condition} (nonempty : cs ≠ []) :
    text cs = " WHERE " ++ " AND ".intercalate (cs.map (·.text)) := by
  rw [text, if_neg]
  exact fun isEmpty => nonempty (List.isEmpty_iff.mp isEmpty)

private theorem append_text_eq_self_iff (before : String) (cs : List Condition) :
    before ++ text cs = before ↔ cs = [] := by
  constructor
  · intro same
    by_contra nonempty
    have lengths := congrArg String.length same
    have keyword : " WHERE ".length = 7 := by decide
    rw [text_of_ne_nil nonempty, String.length_append, String.length_append, keyword] at lengths
    omega
  · rintro rfl
    exact String.append_empty

end Conditions

/-! ## The columns that a surface lets an update assign -/

namespace Surface

variable {t : Table}

private theorem mem_updatable {name : String} :
    name ∈ (ofTable t).updatable ↔ ∃ c ∈ t.columns, c.primaryKey = false ∧ c.name = name := by
  simp [ofTable, and_assoc]

private theorem updatable_eq_nil_iff :
    (ofTable t).updatable = [] ↔ ∀ c ∈ t.columns, c.primaryKey = true := by
  simp [ofTable]

private theorem key_not_mem_updatable (faultless : t.faults = []) {key : Column}
    (member : key ∈ t.columns)
    (isKey : key.primaryKey = true) : key.name ∉ (ofTable t).updatable := by
  intro updatable
  obtain ⟨c, memberOther, isPlain, sameName⟩ := mem_updatable.mp updatable
  have same := List.inj_on_of_nodup_map (Table.nodup_columnNames faultless) memberOther member
    sameName
  rw [same, isKey] at isPlain
  cases isPlain

end Surface

/-! ## Updates -/

namespace Update

namespace Call

/-- The names of the columns that the call assigns. -/
def assigned : Call m → List String
  | set c _ => [c.column.name]
  | setEntry _ => (Surface.ofTable m.table).updatable
  | onConflict _ | aim _ => []

/-- The columns that a call assigns are those of its assignments. -/
theorem map_fst_assignments? (call : Call m) :
    (call.assignments?.getD []).map (·.1) = call.assigned := by
  cases call with
  | setEntry entry =>
      have columns := m.map_fst_filter_write entry (!·.primaryKey)
      calc (((m.table.columns.zip (m.write entry)).filter (!·.1.primaryKey)).map
              fun cv => (cv.1.name, cv.2)).map (·.1)
        _ = (((m.table.columns.zip (m.write entry)).filter (!·.1.primaryKey)).map (·.1)).map
              (·.name) := by
          rw [List.map_map, List.map_map]
          rfl
        _ = (Surface.ofTable m.table).updatable := by
          rw [columns]
          rfl
  | set c x | onConflict p | aim t => rfl

end Call

variable {calls : List (Call m)}

private theorem conditions_eq_nil_iff :
    calls.filterMap (·.condition?) = [] ↔ ∀ t, .aim t ∉ calls := by
  rw [List.filterMap_eq_nil_iff]
  constructor
  · intro none t member
    cases none _ member
  · intro noAim call member
    cases call with
    | aim t => exact absurd member (noAim t)
    | set c x | setEntry entry | onConflict p => rfl

private theorem map_fst_assignments (calls : List (Call m)) :
    ((calls.filterMap (·.assignments?)).flatten).map (·.1) = calls.flatMap (·.assigned) := by
  induction calls with
  | nil => rfl
  | cons call calls ih =>
      rw [List.flatMap_cons, ← ih, ← call.map_fst_assignments?, List.filterMap_cons]
      cases call.assignments? with
      | none => rfl
      | some assignments => simp

/-- Which calls an update needs to have a statement, and what the statement then says. -/
theorem mem_statement?_ofCalls {s : UpdateStatement} :
    s ∈ (ofCalls calls).statement? ↔
      (∃ call ∈ calls, call.assignments?.isSome = true) ∧ (∃ t, .aim t ∈ calls) ∧
        s = ⟨(ofCalls calls).policy, m.table.name, (calls.filterMap (·.assignments?)).flatten,
          calls.filterMap (·.condition?)⟩ := by
  have assigning : (calls.filterMap (·.assignments?)).isEmpty = false ↔
      ∃ call ∈ calls, call.assignments?.isSome = true := by
    rw [List.isEmpty_eq_false_iff, ne_eq, List.filterMap_eq_nil_iff]
    simp [Option.isSome_iff_ne_none]
  have aiming : (calls.filterMap (·.condition?)).isEmpty = false ↔ ∃ t, .aim t ∈ calls := by
    rw [List.isEmpty_eq_false_iff, ne_eq, conditions_eq_nil_iff]
    simp only [not_forall, not_not]
  rw [statement?_ofCalls, Option.mem_def, Option.ite_none_left_eq_some, Bool.or_eq_true, not_or,
    Bool.not_eq_true, Bool.not_eq_true, assigning, aiming, Option.some_inj, and_assoc,
    eq_comm (b := s)]

/-- Only a record of nothing but a key is assigned to no column. -/
theorem flatMap_assigned_eq_nil_iff {call : Call m} (member : call ∈ calls)
    (assigns : call.assignments?.isSome = true) :
    calls.flatMap (·.assigned) = [] ↔
      (∀ c x, .set c x ∉ calls) ∧ ∀ c ∈ m.table.columns, c.primaryKey = true := by
  rw [List.flatMap_eq_nil_iff]
  constructor
  · intro none
    have noSet : ∀ c x, Call.set c x ∉ calls := by
      intro c x isCall
      exact List.cons_ne_nil _ _ (none (.set c x) isCall)
    refine ⟨noSet, ?_⟩
    -- The call that assigns is one of a record, and no other would leave the list empty.
    cases call with
    | set c x => exact absurd member (noSet c x)
    | setEntry entry => exact Surface.updatable_eq_nil_iff.mp (none _ member)
    | onConflict p | aim t => cases assigns
  · rintro ⟨noSet, onlyKeys⟩ call member
    cases call with
    | set c x => exact absurd member (noSet c x)
    | setEntry entry => exact Surface.updatable_eq_nil_iff.mpr onlyKeys
    | onConflict p | aim t => rfl

/-- A column that records do not assign is assigned if a call does so by itself. -/
theorem mem_flatMap_assigned_iff {name : String}
    (spared : name ∉ (Surface.ofTable m.table).updatable) :
    name ∈ calls.flatMap (·.assigned) ↔ ∃ c x, .set c x ∈ calls ∧ c.column.name = name := by
  rw [List.mem_flatMap]
  constructor
  · rintro ⟨call, member, assigned⟩
    cases call with
    | set c x => exact ⟨c, x, member, (List.mem_singleton.mp assigned).symm⟩
    | setEntry entry => exact absurd assigned spared
    | onConflict p | aim t => cases assigned
  · rintro ⟨c, x, member, rfl⟩
    exact ⟨.set c x, member, List.mem_singleton_self _⟩

end Update

/-! ## Deletions -/

namespace Deletion

variable {calls : List (Call m)}

private theorem conditions_eq_nil_iff :
    calls.filterMap (·.condition?) = [] ↔ ∀ t, .aim t ∉ calls := by
  rw [List.filterMap_eq_nil_iff]
  constructor
  · intro none t member
    cases none _ member
  · intro noAim call member
    cases call with
    | aim t => exact absurd member (noAim t)
    | all => rfl

private theorem mem_statement?_ofCalls {s : DeleteStatement} :
    s ∈ (ofCalls calls).statement? ↔
      calls ≠ [] ∧ s = ⟨m.table.name, calls.filterMap (·.condition?)⟩ := by
  rw [statement?_ofCalls, Option.mem_def, Option.ite_none_left_eq_some, List.isEmpty_iff,
    Option.some_inj, eq_comm (b := s)]

end Deletion

namespace Model

/-- **Changes are targeted.** An update has a statement once its calls assign and aim, a deletion once
there is a call. The statement of an update always has its conditions after WHERE; nothing stands
after SET exactly if no call assigns a single column and the model has no other columns than keys. The
statement of a deletion is without WHERE exactly if a call is for everything and none aims. -/
theorem statements_targeted (m : Model) :
    (∀ calls : List (Update.Call m),
      ((Update.ofCalls calls).statement?.isSome = true ↔
        (∃ call ∈ calls, call.assignments?.isSome = true) ∧ ∃ t, .aim t ∈ calls) ∧
      ∀ s ∈ (Update.ofCalls calls).statement?,
        s.conditions ≠ [] ∧
        s.statement.text =
          "UPDATE " ++ policyText s.policy ++ quoted m.table.name ++ " SET " ++
            listed (s.assignments.map fun a => quoted a.1 ++ " = ?") ++
            (" WHERE " ++ " AND ".intercalate (s.conditions.map (·.text))) ∧
        (s.assignments = [] ↔
          (∀ c x, .set c x ∉ calls) ∧ ∀ c ∈ m.table.columns, c.primaryKey = true)) ∧
    (∀ calls : List (Deletion.Call m),
      ((Deletion.ofCalls calls).statement?.isSome = true ↔ calls ≠ []) ∧
      ∀ s ∈ (Deletion.ofCalls calls).statement?,
        (s.statement.text = "DELETE FROM " ++ quoted m.table.name ↔ s.conditions = []) ∧
        (s.conditions = [] ↔ .all ∈ calls ∧ ∀ t, .aim t ∉ calls)) := by
  refine ⟨fun calls => ⟨?_, fun s finished => ?_⟩, fun calls => ⟨?_, fun s finished => ?_⟩⟩
  · simp only [Option.isSome_iff_exists, ← Option.mem_def, Update.mem_statement?_ofCalls,
      exists_and_left, exists_eq, and_true]
  · obtain ⟨⟨call, member, assigns⟩, ⟨t, aims⟩, rfl⟩ := Update.mem_statement?_ofCalls.mp finished
    have aimed : calls.filterMap (·.condition?) ≠ [] := by
      intro none
      exact Update.conditions_eq_nil_iff.mp none t aims
    refine ⟨aimed, ?_, ?_⟩
    · rw [UpdateStatement.statement, Conditions.text_of_ne_nil aimed]
    · rw [← Update.flatMap_assigned_eq_nil_iff member assigns, ← Update.map_fst_assignments,
        List.map_eq_nil_iff]
  · simp only [Option.isSome_iff_exists, ← Option.mem_def, Deletion.mem_statement?_ofCalls,
      exists_and_left, exists_eq, and_true]
  · obtain ⟨nonempty, rfl⟩ := Deletion.mem_statement?_ofCalls.mp finished
    refine ⟨Conditions.append_text_eq_self_iff _ _, ?_⟩
    rw [Deletion.conditions_eq_nil_iff]
    constructor
    · intro noAim
      refine ⟨?_, noAim⟩
      -- There is a call, and it can only be for everything.
      obtain ⟨call, member⟩ := List.exists_mem_of_ne_nil calls nonempty
      cases call with
      | aim t => exact absurd member (noAim t)
      | all => exact member
    · rintro ⟨-, noAim⟩
      exact noAim

/-- The calls of a deletion of everything, of which a row is picked out after all. -/
def pickedCalls : List (Deletion.Call awkward) :=
  [.all, .aim (.key (.integer 7))]

/-- The update and the deletion both have conditions, the deletion in spite of its first call. -/
theorem statements_targeted_awkward :
    (∃ s ∈ (Update.ofCalls awkwardCalls).statement?, s.conditions ≠ [] ∧ s.assignments ≠ []) ∧
    ∃ s ∈ (Deletion.ofCalls pickedCalls).statement?,
      s.statement.text ≠ "DELETE FROM " ++ quoted awkward.table.name := by
  obtain ⟨updates, deletions⟩ := statements_targeted awkward
  constructor
  · obtain ⟨whether, each⟩ := updates awkwardCalls
    have assigns : Update.Call.set ⟨.plain "\" = ?" .text, ⟨.text, false⟩⟩ "?" ∈ awkwardCalls :=
      List.mem_cons_of_mem _ List.mem_cons_self
    obtain ⟨s, finished⟩ := Option.isSome_iff_exists.mp
      (whether.mpr ⟨⟨_, assigns, rfl⟩, .key (.integer 7), List.mem_cons_self⟩)
    obtain ⟨aimed, -, assignsNothing⟩ := each s finished
    exact ⟨s, finished, aimed, fun none => (assignsNothing.mp none).1 _ _ assigns⟩
  · obtain ⟨whether, each⟩ := deletions pickedCalls
    obtain ⟨s, finished⟩ := Option.isSome_iff_exists.mp (whether.mpr (List.cons_ne_nil _ _))
    obtain ⟨shown, everything⟩ := each s finished
    refine ⟨s, finished, fun bare => ?_⟩
    exact (everything.mp (shown.mp bare)).2 _ (List.mem_cons_of_mem _ List.mem_cons_self)

/-- Records of nothing but a key. -/
def counter : Model where
  table :=
    { name := "Counter", model := "Counter", columns := [(Column.plain "id" .integer).asKey true],
      associations := [] }
  record := [⟨"id", .value, false⟩]
  names := rfl

/-- An update by a record of nothing but a key has a statement, and assigns nothing. -/
theorem statements_targeted_counter :
    ∃ s ∈ (Update.ofCalls (m := counter)
        [.setEntry (.integer 1, ()), .aim (.key (.integer 1))]).statement?,
      s.assignments = [] ∧
      s.statement.text = "UPDATE \"Counter\" SET  WHERE \"id\" = ?" :=
  ⟨_, rfl, rfl, by decide +kernel⟩

/-- **Assigned columns.** An update assigns the columns of its calls in their order, a record being all
columns that the surface says. So all of them are among these exactly if each column that is assigned by
itself is, and the key of an accepted table is assigned exactly if a call assigns it by itself. -/
theorem assigned_of_calls (m : Model) (calls : List (Update.Call m)) :
    ∀ s ∈ (Update.ofCalls calls).statement?,
      s.assignments.map (·.1) = calls.flatMap (·.assigned) ∧
      ((∀ name ∈ s.assignments.map (·.1), name ∈ (Surface.ofTable m.table).updatable) ↔
        ∀ c x, .set c x ∈ calls → c.column.name ∈ (Surface.ofTable m.table).updatable) ∧
      (m.table.faults = [] → ∀ key ∈ m.table.columns, key.primaryKey = true →
        (key.name ∈ s.assignments.map (·.1) ↔
          ∃ c x, .set c x ∈ calls ∧ c.column.name = key.name)) := by
  intro s finished
  obtain ⟨-, -, rfl⟩ := Update.mem_statement?_ofCalls.mp finished
  rw [Update.map_fst_assignments]
  refine ⟨rfl, ⟨fun each c x member => ?_, fun each name assigned => ?_⟩,
    fun faultless key member isKey => ?_⟩
  · exact each _ (List.mem_flatMap.mpr ⟨.set c x, member, List.mem_singleton_self _⟩)
  · by_contra spared
    obtain ⟨c, x, member, rfl⟩ := (Update.mem_flatMap_assigned_iff spared).mp assigned
    exact spared (each c x member)
  · exact Update.mem_flatMap_assigned_iff (Surface.key_not_mem_updatable faultless member isKey)

/-- The calls of an update by a record, of which a column is assigned again. -/
def recordCalls : List (Update.Call awkward) :=
  [.setEntry (.integer 8, "new", ()), .set ⟨.plain "\" = ?" .text, ⟨.text, false⟩⟩ "newer",
    .aim (.key (.integer 7))]

/-- The text is assigned by the record and by the call after it, and the key by none. -/
theorem assigned_of_calls_awkward :
    ∃ s ∈ (Update.ofCalls recordCalls).statement?,
      awkward.table.faults = [] ∧ s.assignments.map (·.1) = ["\" = ?", "\" = ?"] ∧
      "id?" ∉ s.assignments.map (·.1) := by
  have faultless : awkward.table.faults = [] := by decide +kernel
  obtain ⟨assigned, -, key⟩ := assigned_of_calls awkward recordCalls _ rfl
  refine ⟨_, rfl, faultless, assigned, fun isAssigned => ?_⟩
  obtain ⟨c, x, member, isKey⟩ := (key faultless _ List.mem_cons_self rfl).mp isAssigned
  rcases List.mem_cons.mp member with isEntry | member
  · cases isEntry
  · rcases List.mem_cons.mp member with isText | member
    · cases isText
      exact absurd isKey (by decide)
    · cases List.mem_singleton.mp member

/-- A call that assigns the key by itself is heard. -/
theorem assigned_of_calls_key :
    ∃ s ∈ (Update.ofCalls (m := awkward)
        [.set ⟨(Column.plain "id?" .integer).asKey true, ⟨.value, false⟩⟩ (.integer 8),
          .aim (.key (.integer 7))]).statement?,
      s.assignments.map (·.1) = ["id?"] ∧
      (Surface.ofTable awkward.table).updatable = ["\" = ?"] :=
  ⟨_, rfl, rfl, by decide +kernel⟩

end Model

end Tabula
