import Tabula.Engine.Limit
import Tabula.Engine.Plan

/-! # Reading rows

What a database answers to selections and counts: the rows that meet the conditions, as a plan
arranges them, and of them a window. An end of the window that is no stored integer is refused,
unless the window is empty from the outset. A statement of which the engine does not take so much is
refused as well (`SelectStatement.isTaken`, `CountStatement.isTaken`).
-/

namespace Tabula

/-- Whether a count of rows is a stored integer. -/
def isCount (n : UInt64) : Bool :=
  n.toNat < twoTo 63

/-- The rows in a window, nothing if an end of it is refused. -/
def window? {α : Type} (limit offset : Option UInt64) (rows : List α) : Option (List α) :=
  if limit = some 0 then some []
  else if !limit.all isCount || !offset.all isCount then none
  else
    let rest :=
      match offset with
      | some n => rows.drop n.toNat
      | none => rows
    some <|
      match limit with
      | some n => rest.take n.toNat
      | none => rest

namespace Contents

/-- What is read of the rows that a selection is of, as a plan arranges them for the statement that
is asked, whatever the window; nothing if the selection is refused. -/
def readAll (c : Contents) (plan : Plan) (asked : Statement) (s : SelectStatement) :
    Option (List Row) :=
  match c.table? s.table with
  | none => none
  | some t =>
    match s.columns.mapM t.definition.cell?, OrderTerm.cells? t.definition s.orders with
    | some cells, some order =>
      if !s.isTaken || !t.knows s.conditions then none
      else
        let rows := plan.arrange c asked order (t.filter s.conditions)
        some (rows.map fun r => cells.map r.cell)
    | _, _ => none

/-- The rows that a selection reads, nothing if it is refused. -/
def select (c : Contents) (s : SelectStatement) (plan : Plan := .byPosition) : Option (List Row) :=
  (c.readAll plan s.statement s).bind (window? s.limit s.offset)

/-- The number of rows that a count finds, nothing if it is refused. -/
def count (c : Contents) (s : CountStatement) : Option Nat :=
  match c.table? s.table with
  | none => none
  | some t =>
    if s.isTaken && t.knows s.conditions then some (t.filter s.conditions).length else none

end Contents

end Tabula
