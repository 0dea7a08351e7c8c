import Tabula.Query.Condition
import Tabula.Schema.Attribute
import Tabula.Value.Row

/-! # Row statements

Statements that read and change the rows of a table. Each has a text with placeholders and the list
of values that go there from left to right (`Statement`): the rows of an insertion one by one, the
assignments of an update before its conditions.
-/

namespace Tabula

/-- A text with placeholders, and the values that go there. -/
structure Statement where
  text : String
  /-- The values, from left to right. -/
  params : List Value
deriving DecidableEq

/-- The texts with a comma between each two. -/
def listed (parts : List String) : String :=
  ", ".intercalate parts

/-- Reads columns of the rows that meet the conditions. -/
structure SelectStatement where
  table : String
  /-- The columns to read. -/
  columns : List String
  /-- The conditions, all of which must hold. -/
  conditions : List Condition
  /-- The order of the rows, the first term first. -/
  orders : List OrderTerm
  /-- How many rows to read at most. -/
  limit : Option UInt64
  /-- How many rows to leave out before. -/
  offset : Option UInt64
deriving DecidableEq

namespace SelectStatement

def orderText (orders : List OrderTerm) : String :=
  if orders.isEmpty then "" else " ORDER BY " ++ listed (orders.map (·.text))

/-- The text of a window on the rows. An offset stands only after a limit, and a negative limit is
none. -/
def windowText : (limit offset : Option UInt64) → String
  | some limit, some offset => " LIMIT " ++ toString limit ++ " OFFSET " ++ toString offset
  | some limit, none => " LIMIT " ++ toString limit
  | none, some offset => " LIMIT -1 OFFSET " ++ toString offset
  | none, none => ""

def statement (s : SelectStatement) : Statement where
  text :=
    "SELECT " ++ listed (s.columns.map quoted) ++ " FROM " ++ quoted s.table ++
      Conditions.text s.conditions ++ orderText s.orders ++ windowText s.limit s.offset
  params := Conditions.operands s.conditions

end SelectStatement

/-- Counts the rows that meet the conditions. -/
structure CountStatement where
  table : String
  /-- The conditions, all of which must hold. -/
  conditions : List Condition
deriving DecidableEq

def CountStatement.statement (s : CountStatement) : Statement where
  text := "SELECT COUNT(*) FROM " ++ quoted s.table ++ Conditions.text s.conditions
  params := Conditions.operands s.conditions

/-- What a change does with a row that violates a constraint, as it stands after the verb. -/
def policyText (p : ConflictPolicy) : String :=
  match p.keyword? with
  | some keyword => "OR " ++ keyword ++ " "
  | none => ""

/-- Inserts rows. Without columns a row takes the default of each column. -/
structure InsertStatement where
  /-- What to do with a row that violates a constraint. -/
  policy : ConflictPolicy
  table : String
  /-- The columns that the rows have values for. -/
  columns : List String
  rows : List Row
deriving DecidableEq

namespace InsertStatement

/-- The text of an insertion of so many rows. -/
def textFor (policy : ConflictPolicy) (table : String) (columns : List String) (count : Nat) :
    String :=
  "INSERT " ++ policyText policy ++ "INTO " ++ quoted table ++
    if columns.isEmpty then " DEFAULT VALUES"
    else
      " (" ++ listed (columns.map quoted) ++ ") VALUES " ++
        listed (List.replicate count (Comparison.placeholders columns.length))

def statement (s : InsertStatement) : Statement where
  text := textFor s.policy s.table s.columns s.rows.length
  params := s.rows.flatten

end InsertStatement

/-- Assigns values to columns of the rows that meet the conditions. -/
structure UpdateStatement where
  /-- What to do with a row that violates a constraint. -/
  policy : ConflictPolicy
  table : String
  /-- The columns and their new values. -/
  assignments : List (String × Value)
  /-- The conditions, all of which must hold. -/
  conditions : List Condition
deriving DecidableEq

def UpdateStatement.statement (s : UpdateStatement) : Statement where
  text :=
    "UPDATE " ++ policyText s.policy ++ quoted s.table ++ " SET " ++
      listed (s.assignments.map fun a => quoted a.1 ++ " = ?") ++ Conditions.text s.conditions
  params := s.assignments.map (·.2) ++ Conditions.operands s.conditions

/-- Deletes the rows that meet the conditions. -/
structure DeleteStatement where
  table : String
  /-- The conditions, all of which must hold. -/
  conditions : List Condition
deriving DecidableEq

def DeleteStatement.statement (s : DeleteStatement) : Statement where
  text := "DELETE FROM " ++ quoted s.table ++ Conditions.text s.conditions
  params := Conditions.operands s.conditions

end Tabula
