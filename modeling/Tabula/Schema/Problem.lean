import Tabula.Schema.Extraction
import Tabula.Schema.Validation

/-! # Problems

Everything that can keep a schema from being built, in the order of the report: faults of fields,
faults of tables, and gaps between validation and compilation, which nobody should ever see.
-/

namespace Tabula

/-- What validation should have kept from the compiler. -/
inductive CompilationError where
  /-- An association of a column that the table has not. -/
  | danglingColumn (table column : String)
  /-- A table with a fault. -/
  | unvalidated (cause : TableFault)
deriving DecidableEq

/-- The message of an error. -/
def CompilationError.message : CompilationError → String
  | danglingColumn table column =>
    "internal: association column " ++ table ++ "." ++ column ++ " is not a column of the table"
  | unvalidated cause =>
    "internal: unvalidated descriptor reached the compiler: " ++ cause.message

/-- Something that keeps a schema from being built. -/
inductive Problem where
  | extraction (e : ExtractionError)
  | validation (f : TableFault)
  | compilation (e : CompilationError)
deriving DecidableEq

namespace Problem

/-- The message of a problem. -/
def message : Problem → String
  | extraction e => e.message
  | validation f => f.message
  | compilation e => e.message

/-- The name of the stage that finds the problem. -/
def stage : Problem → String
  | extraction _ => "extraction"
  | validation _ => "validation"
  | compilation _ => "compilation"

/-- What a log names as the place of the problem: the field of a model, or a table. -/
def place? : Problem → Option (String × String)
  | extraction e => some ("field", e.field)
  | validation f => some ("table", f.subject)
  | compilation _ => none

/-- The text of a whole report. -/
def report (ps : List Problem) : String :=
  toString ps.length ++ " schema error(s):" ++ String.join (ps.map fun p => "\n  - " ++ p.message)

/-- The number of problems of each stage. -/
structure Counts where
  /-- Faults of fields. -/
  extraction : Nat
  /-- Faults of tables. -/
  validation : Nat
  /-- Gaps of validation. -/
  compilation : Nat
deriving DecidableEq

/-- The number of all problems. -/
def Counts.total (c : Counts) : Nat :=
  c.extraction + c.validation + c.compilation

/-- The number of problems of each stage in a report. -/
def counts (ps : List Problem) : Counts where
  extraction := ps.countP fun | extraction _ => true | _ => false
  validation := ps.countP fun | validation _ => true | _ => false
  compilation := ps.countP fun | compilation _ => true | _ => false

/-- The counts of problems add up to their number. -/
theorem total_counts (ps : List Problem) : (counts ps).total = ps.length := by
  induction ps with
  | nil => rfl
  | cons p ps ih =>
    cases p <;> simp_all [counts, Counts.total] <;> omega

end Problem

end Tabula
