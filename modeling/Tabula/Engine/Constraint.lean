import Tabula.Engine.Contents
import Tabula.Text.Quoted

/-! # Constraints

A row is written into a table only if it breaks no constraint: columns that may not hold NULL, the
position of the row, and the columns and indexes whose values are unique. What is done otherwise is
up to the policy of the statement, and where it has none, of the constraint
(`StoredTable.accept`). Replacing makes way for the row: a NULL becomes the default of the column,
and the rows that it clashes with go.
-/

namespace Tabula

/-- What becomes of a statement that meets a row which it cannot write. -/
inductive Refusal where
  /-- The row is left out and the statement goes on. -/
  | skip
  /-- Nothing of the statement is done. -/
  | abort
  /-- The statement ends, and the rows so far stay. -/
  | fail
  /-- Nothing of the statement is done, and nothing of the transaction around it. -/
  | rollback
deriving DecidableEq

namespace ConflictPolicy

/-- The refusal of a policy that does not make way for the row. -/
def refusal : ConflictPolicy → Refusal
  | ignore => .skip
  | fail => .fail
  | rollback => .rollback
  | unset | abort | replace => .abort

/-- The policy of a statement, and where it has none, that of the constraint. -/
def orElse (statement constraint : ConflictPolicy) : ConflictPolicy :=
  if statement = unset then constraint else statement

end ConflictPolicy

namespace Column

/-- The value of an expression that is a literal, nothing if it is none. -/
def literal? (expr : String) : Option Value :=
  let word := Text.asciiUpper (Text.trim expr)
  match Text.lexQuoted? '\'' (Text.trimChars expr.toList) with
  | some (name, []) => some (.text (String.ofList name))
  | _ =>
    if word = "NULL" then some .null
    else if word = "TRUE" then some (.integer 1)
    else if word = "FALSE" then some (.integer 0)
    else (Numeral.ofText? expr).map Numeral.value

/-- The value of a row that comes without, nothing if it is no literal. -/
def defaultValue? (c : Column) : Option Value :=
  match c.defaultExpr with
  | none => some .null
  | some expr => (literal? expr).map c.storage.store

/-- The value that the column takes instead of one that it is given. -/
def fill (policy : ConflictPolicy) (c : Column) (v : Value) : Except Refusal Value :=
  if c.primaryKey || c.nullable || !v.isNull then .ok v
  else
    let own := if c.unique then .unset else c.onConflict
    match policy.orElse own with
    | .replace =>
      match c.defaultValue? with
      | some d => if d.isNull then .error .abort else .ok d
      | none => .error .abort
    | p => .error p.refusal

end Column

/-- The values that columns take instead of those that they are given, column by column; only those
in the list are looked at. -/
def fillRow (policy : ConflictPolicy) (looked : List String) :
    List Column → Row → Except Refusal Row
  | c :: cs, v :: vs => do
    let v ← if looked.contains c.name then c.fill policy v else .ok v
    let rest ← fillRow policy looked cs vs
    return v :: rest
  | _, _ => .ok []

/-- A constraint between a row and the others. -/
structure Rule where
  /-- What to do where it is broken. -/
  policy : ConflictPolicy
  /-- Whether it is broken with the other row. -/
  clashes : StoredRow → Bool

/-- A row that can be written. -/
structure Accepted where
  values : Row
  /-- The positions of the rows that go for it. -/
  displaced : List Int64
deriving DecidableEq

namespace StoredTable

/-- The rule that a column has no value twice. -/
def unique (place : Nat) (c : Column) (policy : ConflictPolicy) (values : Row) : Rule where
  policy := policy
  clashes r := (r.values.getD place .null).same c.collation (values.getD place .null)

/-- The rules of the unique indexes, the latest first. -/
def indexRules (t : StoredTable) (values : Row) : List Rule :=
  t.indexes.reverse.filterMap fun i =>
    match t.definition.cell? i.column.name with
    | some (.column place c) => if i.column.unique then some (unique place c .unset values) else none
    | _ => none

/-- The rules of the columns of which no two rows may have the same value, the last first. -/
def columnRules (t : StoredTable) (values : Row) : List Rule :=
  t.definition.columns.zipIdx.reverse.filterMap fun (c, place) =>
    if Table.isRowid c || !(c.primaryKey || c.unique) then none
    else some (unique place c c.effectivePolicy values)

/-- What the position of a row does where it is taken. -/
def rowidPolicy (t : StoredTable) : ConflictPolicy :=
  match t.definition.columns.find? Table.isRowid with
  | some c => c.onConflict
  | none => .unset

/-- The rules for a row at a position under the policy of a statement. -/
def rules (t : StoredTable) (policy : ConflictPolicy) (rowid : Int64) (values : Row) : List Rule :=
  (⟨t.rowidPolicy, fun r => r.rowid == rowid⟩ :: (t.indexRules values ++ t.columnRules values)).map
    fun rule => { rule with policy := policy.orElse rule.policy }

/-- The position of the new version of a row: where a column holds it, what that column now holds, if
that is an integer. -/
def movedTo? (t : StoredTable) (rowid : Int64) (values : Row) : Option Int64 :=
  match t.definition.rowidPlace?.map fun place => values.getD place .null with
  | none => some rowid
  | some (.integer n) => some n
  | some _ => none

/-- Whether a row at a position breaks no rule with the others, where `self` is the position of the row
that it is the new version of. -/
def admits (t : StoredTable) (self : Option Int64) (row : StoredRow) : Bool :=
  (t.rows.filter fun r => some r.rowid != self).all fun r =>
    (t.rules .abort row.rowid row.values).all fun rule => !rule.clashes r

/-- The row at a position if it can be written, where `self` is the position of the row that it is
the new version of. The first broken rule that does not make way decides. -/
def accept (t : StoredTable) (policy : ConflictPolicy) (self : Option Int64) (looked : List String)
    (row : StoredRow) : Except Refusal Accepted := do
  let values ← fillRow policy looked t.definition.columns row.values
  let others := t.rows.filter fun r => some r.rowid != self
  let (yielding, firm) := (t.rules policy row.rowid values).partition (·.policy = .replace)
  match firm.find? fun rule => others.any rule.clashes with
  | some rule => .error rule.policy.refusal
  | none =>
    let displaced := others.filter fun r => yielding.any fun rule => rule.clashes r
    return ⟨values, displaced.map (·.rowid)⟩

end StoredTable

end Tabula
