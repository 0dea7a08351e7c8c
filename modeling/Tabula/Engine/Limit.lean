import Tabula.Query.Statement

/-! # Limits of statements

How much of a statement the engine takes: so many values, so many columns and terms of an order, and
conditions down to a certain depth. Nor does it take a list of columns or of assignments that is
empty. A list of conditions is as deep as their conjunction, joined from left to right
(`Conditions.together`). Nothing is in an empty list, so the engine puts the constant in place of such
a comparison, and of whatever is joined with it by AND (`Outline`).
-/

namespace Tabula

namespace Limit

/-- How deep a condition may be. -/
def depth : Nat := 1000

/-- How many values a statement may have. -/
def values : Nat := 32766

/-- How many columns, and how many terms, a statement may name. -/
def terms : Nat := 2000

end Limit

/-- What the engine makes of a condition before it looks at any row. -/
structure Outline where
  /-- How deep the condition is. -/
  height : Nat
  /-- Whether it is known to hold of no row. -/
  isNever : Bool
deriving DecidableEq

namespace Outline

/-- The constant that holds of no row. -/
def never : Outline := ⟨1, true⟩

/-- Two conditions as one, nothing if that is too deep. -/
def join? (a b : Outline) : Option Outline :=
  let height := max a.height b.height + 1
  if height ≤ Limit.depth then some ⟨height, false⟩ else none

/-- Two conditions that must both hold. -/
def both? (a b : Outline) : Option Outline :=
  if a.isNever || b.isNever then some never else a.join? b

end Outline

/-- A comparison with so many operands. With the only one of a list the column is compared for
equality. -/
def Comparison.outline (op : Comparison) (count : Nat) : Outline :=
  match op, count with
  | inList, 0 => .never
  | inList, 1 => ⟨3, false⟩
  | notInList, 0 => ⟨1, false⟩
  | notInList, 1 => ⟨4, false⟩
  | notInList, _ => ⟨3, false⟩
  | _, _ => ⟨2, false⟩

/-- What the engine makes of the condition, nothing if some part of it is too deep. -/
def Condition.outline? : Condition → Option Outline
  | compare _ op operands => some (op.outline operands.length)
  | both left right => do (← left.outline?).both? (← right.outline?)
  | either left right => do (← left.outline?).join? (← right.outline?)

namespace Conditions

/-- Whether no part of the conditions is too deep. -/
def isShallow (cs : List Condition) : Bool :=
  (together cs).all (·.outline?.isSome)

end Conditions

/-- Whether the engine takes so much of a selection, which must be of some column. -/
def SelectStatement.isTaken (s : SelectStatement) : Bool :=
  Conditions.isShallow s.conditions && (Conditions.operands s.conditions).length ≤ Limit.values &&
    !s.columns.isEmpty && s.columns.length ≤ Limit.terms && s.orders.length ≤ Limit.terms

/-- Whether the engine takes so much of a count. -/
def CountStatement.isTaken (s : CountStatement) : Bool :=
  Conditions.isShallow s.conditions && (Conditions.operands s.conditions).length ≤ Limit.values

/-- Whether the engine takes so much of an update, which must assign something. -/
def UpdateStatement.isTaken (s : UpdateStatement) : Bool :=
  Conditions.isShallow s.conditions && s.statement.params.length ≤ Limit.values &&
    !s.assignments.isEmpty && s.assignments.length ≤ Limit.terms

/-- Whether the engine takes so much of a deletion. -/
def DeleteStatement.isTaken (s : DeleteStatement) : Bool :=
  Conditions.isShallow s.conditions && (Conditions.operands s.conditions).length ≤ Limit.values

end Tabula
