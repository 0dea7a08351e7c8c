import Tabula.Model.Filter

/-! # Updates and deletions

Changes of the rows of a model that are there. A change says which rows it is about: the row of a
key, the rows that meet a filter, or, of a deletion only, every row. A change that does not say so
has no statement, and neither has an update that assigns nothing (`Update.missing`).
-/

namespace Tabula

/-- Which rows a change is about. -/
inductive Target (m : Model) where
  /-- The row of the key. -/
  | key (value : Value)
  /-- The rows that meet the filter. -/
  | filter (f : Filter m)

/-- What the rows of a target meet. -/
def Target.condition {m : Model} : Target m → Condition
  | key value => m.keyCondition value
  | filter f => f.condition

/-- The row of a record, if the table has a key. -/
def Target.ofEntry {m : Model} (entry : m.Entry) : Except SurfaceError (Target m) :=
  match m.keyValue? entry with
  | some value => .ok (key value)
  | none => .error (.noKey m.table.name)

/-- What an unfinished change still needs. -/
inductive Missing where
  /-- An assignment. -/
  | assignment
  /-- The rows that it is about. -/
  | target
deriving DecidableEq

/-- An update of rows. -/
structure Update (m : Model) where
  /-- The columns and their new values, nothing before the first assignment. -/
  assignments : Option (List (String × Value)) := none
  /-- What the rows are; a row is updated if it is one of each target. -/
  targets : List (Target m) := []
  /-- What to do with a row that violates a constraint. -/
  policy : ConflictPolicy := .unset

namespace Update

variable {m : Model}

/-- The update with further assignments. -/
def assign (u : Update m) (more : List (String × Value)) : Update m :=
  { u with assignments := some (u.assignments.getD [] ++ more) }

/-- The update that also assigns a column. -/
def set (u : Update m) (c : ModelColumn) (x : c.type.Carrier) : Update m :=
  u.assign [(c.column.name, c.type.write x)]

/-- The update that also assigns what a value holds to a column. -/
def setValue (u : Update m) (name : String) (v : Value) : Except OfferError (Update m) := do
  let ⟨c, _⟩ ← m.member name
  let x ← (c.type.read v).mapError .value
  return u.set c x

/-- The update that also assigns the values of a record to all columns but the key. -/
def setEntry (u : Update m) (entry : m.Entry) : Update m :=
  u.assign <| ((m.table.columns.zip (m.write entry)).filter (!·.1.primaryKey)).map fun cv =>
    (cv.1.name, cv.2)

/-- The update of those rows only that are also of the target. -/
def aim (u : Update m) (t : Target m) : Update m :=
  { u with targets := u.targets ++ [t] }

/-- The update with an answer to violated constraints. -/
def onConflict (u : Update m) (p : ConflictPolicy) : Update m :=
  { u with policy := p }

/-- What the update still needs. -/
def missing (u : Update m) : List Missing :=
  (if u.assignments.isNone then [.assignment] else []) ++
    if u.targets.isEmpty then [.target] else []

/-- The statement of the update, if it needs nothing more. -/
def statement? (u : Update m) : Option UpdateStatement :=
  match u.assignments, u.targets with
  | some assignments, _ :: _ =>
    some ⟨u.policy, m.table.name, assignments, u.targets.map (·.condition)⟩
  | _, _ => none

/-- An update is complete just if no part of it is missing. -/
theorem statement?_isSome (u : Update m) : u.statement?.isSome = u.missing.isEmpty := by
  unfold statement? missing
  cases u.assignments <;> cases u.targets <;> rfl

end Update

/-- A deletion of rows. -/
structure Deletion (m : Model) where
  /-- Whether every row is meant where there is no target. -/
  everything : Bool := false
  /-- What the rows are; a row is deleted if it is one of each target. -/
  targets : List (Target m) := []

namespace Deletion

variable {m : Model}

/-- The deletion of every row. -/
def all (d : Deletion m) : Deletion m :=
  { d with everything := true }

/-- The deletion of those rows only that are also of the target. -/
def aim (d : Deletion m) (t : Target m) : Deletion m :=
  { d with targets := d.targets ++ [t] }

/-- What the deletion still needs. -/
def missing (d : Deletion m) : List Missing :=
  if d.everything || !d.targets.isEmpty then [] else [.target]

/-- The statement of the deletion, if it needs nothing more. -/
def statement? (d : Deletion m) : Option DeleteStatement :=
  if d.missing.isEmpty then some ⟨m.table.name, d.targets.map (·.condition)⟩ else none

end Deletion

end Tabula
