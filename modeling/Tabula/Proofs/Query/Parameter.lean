import Tabula.Proofs.Query.Placeholder

/-! # Parameters of statements

What the parameters of a statement stand for. A condition has its operands where it compares with
them, the left one's before the right one's (`Tabula.Condition.inlays`). An insertion has its values
row by row (`Tabula.InsertStatement.puts`), and an update its new values before the operands of its
conditions (`Tabula.UpdateStatement.puts`); selections, counts and deletions have operands only.
-/

namespace Tabula

open Sql

/-! ## Conditions -/

namespace Comparison

/-- The comparison with its operands, as it follows the column. A test for NULL has none. -/
def written (values : List Value) : Comparison → List Mark
  | eq => plain " = " ++ listing values
  | notEq => plain " <> " ++ listing values
  | isNull => plain " IS NULL"
  | isNotNull => plain " IS NOT NULL"
  | inList => plain " IN " ++ (plain "(" ++ listing values ++ plain ")")
  | notInList => plain " NOT IN " ++ (plain "(" ++ listing values ++ plain ")")
  | lt => plain " < " ++ listing values
  | le => plain " <= " ++ listing values
  | gt => plain " > " ++ listing values
  | ge => plain " >= " ++ listing values
  | between => plain " BETWEEN " ++ (plain " AND ").intercalate (values.map fun v => [.value v])

/-- Placeholders in parentheses take the values in their order. -/
theorem inlays_placeholders (values : List Value) :
    Inlays (placeholders values.length) values (plain "(" ++ listing values ++ plain ")") := by
  have inside : Inlays (", ".intercalate (values.map fun _ => "?")) (values.flatMap fun v => [v])
      (listing values) := Inlays.intercalate (by decide) fun v _ => Inlays.slot v
  rw [List.flatMap_singleton'] at inside
  rw [placeholders, Value.placeholder, ← List.map_const']
  exact (Inlays.after (.unmarked (by decide)) inside).before (.unmarked (by decide))

/-- A comparison has its operands at its placeholders, if there are as many as it takes. -/
theorem inlays {op : Comparison} {values : List Value} (takes : op.Takes values.length) :
    Inlays (op.text values.length) (if op.arity? = some 0 then [] else values)
      (op.written values) := by
  have one {sign : String} (clean : IsUnmarked sign) (v : Value) :
      Inlays (sign ++ "?") [v] (plain sign ++ [.value v]) :=
    Inlays.after (.unmarked clean) (.slot v)
  have signed (sign : String) (clean : IsUnmarked sign) (arity : op.arity? = some 1)
      (shape : op.text 1 = sign ++ "?") :
      Inlays (op.text values.length) values (plain sign ++ listing values) := by
    obtain ⟨v, rfl⟩ := List.length_eq_one_iff.mp (takes 1 arity)
    have isShape : op.text [v].length = sign ++ "?" := shape
    rw [isShape, listing, List.map_singleton, List.intercalate_singleton]
    exact one clean v
  have lists (opening : String) (clean : IsUnmarked opening) :
      Inlays (opening ++ placeholders values.length) values
        (plain opening ++ (plain "(" ++ listing values ++ plain ")")) :=
    Inlays.after (.unmarked clean) (inlays_placeholders values)
  cases op with
  | eq => exact signed " = " (by decide) rfl (by decide)
  | notEq => exact signed " <> " (by decide) rfl (by decide)
  | lt => exact signed " < " (by decide) rfl (by decide)
  | le => exact signed " <= " (by decide) rfl (by decide)
  | gt => exact signed " > " (by decide) rfl (by decide)
  | ge => exact signed " >= " (by decide) rfl (by decide)
  | isNull => exact @Silent.unmarked " IS NULL" (by decide)
  | isNotNull => exact @Silent.unmarked " IS NOT NULL" (by decide)
  | inList => exact lists " IN " (by decide)
  | notInList => exact lists " NOT IN " (by decide)
  | between =>
      obtain ⟨v, w, rfl⟩ := List.length_eq_two.mp (takes 2 rfl)
      have shape : between.text 2 = " BETWEEN " ++ "?" ++ (" AND " ++ "?") := by decide
      have isShape : between.text [v, w].length = _ := shape
      rw [isShape]
      exact (one (by decide) v).append (one (by decide) w)

end Comparison

namespace Condition

/-- The condition with its operands, the left one before the right one. -/
def written : Condition → List Mark
  | compare column op values => plain (quoted column) ++ op.written values
  | both left right => plain "(" ++ left.written ++ plain " AND " ++ right.written ++ plain ")"
  | either left right => plain "(" ++ left.written ++ plain " OR " ++ right.written ++ plain ")"

/-- Two texts with a word between them, in parentheses. -/
theorem inlays_joined {word left right : String} {values others : List Value}
    {marks more : List Mark} (clean : IsUnmarked word) (first : Inlays left values marks)
    (second : Inlays right others more) :
    Inlays ("(" ++ left ++ word ++ right ++ ")") (values ++ others)
      (plain "(" ++ marks ++ plain word ++ more ++ plain ")") := by
  have opened := Inlays.after (@Silent.unmarked "(" (by decide)) first
  have joined := (opened.before (.unmarked clean)).append second
  exact joined.before (.unmarked (by decide))

/-- A condition has its operands at its placeholders. -/
theorem inlays {c : Condition} (counted : c.Counted) : Inlays c.text c.operands c.written := by
  induction c with
  | compare column op values => exact Inlays.after (.name column) (Comparison.inlays counted)
  | both left right ihLeft ihRight =>
      exact inlays_joined (by decide) (ihLeft counted.1) (ihRight counted.2)
  | either left right ihLeft ihRight =>
      exact inlays_joined (by decide) (ihLeft counted.1) (ihRight counted.2)

end Condition

namespace Conditions

/-- The conditions with their operands, after the keyword. -/
def written (cs : List Condition) : List Mark :=
  if cs.isEmpty then [] else plain " WHERE " ++ (plain " AND ").intercalate (cs.map (·.written))

/-- Conditions have their operands at their placeholders. -/
theorem inlays {cs : List Condition} (counted : ∀ c ∈ cs, c.Counted) :
    Inlays (text cs) (operands cs) (written cs) := by
  cases cs with
  | nil => exact @Silent.unmarked "" (by decide)
  | cons c cs =>
      have joined : Inlays (" AND ".intercalate ((c :: cs).map (·.text)))
          ((c :: cs).flatMap (·.operands)) ((plain " AND ").intercalate ((c :: cs).map (·.written))) :=
        Inlays.intercalate (by decide) fun d member => Condition.inlays (counted d member)
      exact Inlays.after (.unmarked (by decide)) joined

end Conditions

/-! ## Statements -/

namespace SelectStatement

/-- The selection with the operands of its conditions. -/
def written (s : SelectStatement) : List Mark :=
  plain ("SELECT " ++ listed (s.columns.map quoted) ++ " FROM " ++ quoted s.table) ++
    Conditions.written s.conditions ++ plain (orderText s.orders) ++
    plain (windowText s.limit s.offset)

end SelectStatement

namespace CountStatement

/-- The count with the operands of its conditions. -/
def written (s : CountStatement) : List Mark :=
  plain ("SELECT COUNT(*) FROM " ++ quoted s.table) ++ Conditions.written s.conditions

end CountStatement

namespace DeleteStatement

/-- The deletion with the operands of its conditions. -/
def written (s : DeleteStatement) : List Mark :=
  plain ("DELETE FROM " ++ quoted s.table) ++ Conditions.written s.conditions

end DeleteStatement

namespace UpdateStatement

/-- The update with the new values, then the operands of its conditions. -/
def written (s : UpdateStatement) : List Mark :=
  plain ("UPDATE " ++ policyText s.policy ++ quoted s.table ++ " SET ") ++
    (plain ", ").intercalate (s.assignments.map fun a => plain (quoted a.1 ++ " = ") ++ [.value a.2]) ++
    Conditions.written s.conditions

end UpdateStatement

namespace InsertStatement

/-- The insertion with its values row by row. Without columns there is no value. -/
def written (s : InsertStatement) : List Mark :=
  plain ("INSERT " ++ policyText s.policy ++ "INTO " ++ quoted s.table) ++
    if s.columns.isEmpty then plain " DEFAULT VALUES"
    else
      plain (" (" ++ listed (s.columns.map quoted) ++ ") VALUES ") ++
        (plain ", ").intercalate (s.rows.map fun row => plain "(" ++ listing row ++ plain ")")

end InsertStatement

end Tabula
