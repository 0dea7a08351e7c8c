import Tabula.Schema.Capability
import Tabula.Text.Quoted

/-! # Conditions

A condition compares columns with operands and joins such comparisons by AND and OR. Its text has a
placeholder where an operand goes, and the operands are handed over apart from it, in the order of
the placeholders (`Condition.operands`). Joined conditions stand in parentheses, so that no
condition changes its meaning where it is put (`Condition.text`).
-/

namespace Tabula

namespace Comparison

/-- The number of operands, nothing where any number will do. -/
def arity? : Comparison → Option Nat
  | isNull | isNotNull => some 0
  | inList | notInList => none
  | between => some 2
  | eq | notEq | lt | le | gt | ge => some 1

/-- Whether the comparison takes so many operands. -/
def Takes (c : Comparison) (count : Nat) : Prop :=
  ∀ n ∈ c.arity?, count = n

instance (c : Comparison) (count : Nat) : Decidable (c.Takes count) :=
  inferInstanceAs (Decidable (∀ n ∈ c.arity?, count = n))

/-- So many placeholders in parentheses. -/
def placeholders (count : Nat) : String :=
  "(" ++ ", ".intercalate (List.replicate count Value.placeholder) ++ ")"

/-- The comparison as it follows the column. Only the length of a list shows in it. -/
def text : Comparison → (count : Nat) → String
  | eq, _ => " = ?"
  | notEq, _ => " <> ?"
  | isNull, _ => " IS NULL"
  | isNotNull, _ => " IS NOT NULL"
  | inList, count => " IN " ++ placeholders count
  | notInList, count => " NOT IN " ++ placeholders count
  | lt, _ => " < ?"
  | le, _ => " <= ?"
  | gt, _ => " > ?"
  | ge, _ => " >= ?"
  | between, _ => " BETWEEN ? AND ?"

end Comparison

/-- A name as an identifier of a row statement. -/
def quoted (name : String) : String :=
  Text.quoteWith '"' name

/-- A condition on the rows of a table. -/
inductive Condition where
  /-- The column compares so with the operands. -/
  | compare (column : String) (op : Comparison) (operands : List Value)
  /-- Both conditions hold. -/
  | both (left right : Condition)
  /-- One of the conditions holds. -/
  | either (left right : Condition)
deriving DecidableEq

namespace Condition

def text : Condition → String
  | compare column op operands => quoted column ++ op.text operands.length
  | both left right => "(" ++ left.text ++ " AND " ++ right.text ++ ")"
  | either left right => "(" ++ left.text ++ " OR " ++ right.text ++ ")"

/-- The operands of the condition, from left to right. A test for NULL has none. -/
def operands : Condition → List Value
  | compare _ op values => if op.arity? = some 0 then [] else values
  | both left right => left.operands ++ right.operands
  | either left right => left.operands ++ right.operands

/-- Whether each comparison has as many operands as it takes. -/
def Counted : Condition → Prop
  | compare _ op values => op.Takes values.length
  | both left right => left.Counted ∧ right.Counted
  | either left right => left.Counted ∧ right.Counted

end Condition

namespace Conditions

/-- The conjunction of the conditions, from left to right. -/
def together : List Condition → Option Condition
  | [] => none
  | c :: cs => some (cs.foldl .both c)

/-- The text of conditions that must hold together, with the keyword before them. -/
def text (cs : List Condition) : String :=
  if cs.isEmpty then "" else " WHERE " ++ " AND ".intercalate (cs.map (·.text))

/-- The operands of conditions, from left to right. -/
def operands (cs : List Condition) : List Value :=
  cs.flatMap (·.operands)

end Conditions

/-- A column to order rows by. -/
structure OrderTerm where
  column : String
  direction : Direction
deriving DecidableEq

def OrderTerm.text (o : OrderTerm) : String :=
  quoted o.column ++ " " ++ o.direction.keyword

end Tabula
