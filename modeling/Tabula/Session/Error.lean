import Tabula.Query.Surface
import Tabula.Schema.Problem
import Tabula.Value.Row

/-! # Errors of sessions

Why a database is not opened, or a statement on it has no answer. What the engine says about its
own failures is not kept: a statement fails or it does not.
-/

namespace Tabula

/-- Why a session cannot do what it is asked for. -/
inductive SessionError where
  /-- The engine refused, or the session is closed. -/
  | database
  /-- The engine refused a statement of a migration. -/
  | statement (text : String)
  /-- The schema has problems. -/
  | schema (problems : List Problem)
  /-- A row is no record of the model. -/
  | row (cause : RowError)
  /-- A statement is not what the table offers. -/
  | surface (cause : SurfaceError)
  /-- A setting has a value that it cannot have. -/
  | configuration (key reason : String)
deriving DecidableEq

/-- The message of an error. -/
def SessionError.message : SessionError → String
  | database => "Database error"
  | statement text => "Statement failed\n  sql: " ++ text
  | schema problems => Problem.report problems
  | row cause => "Row error: " ++ cause.message
  | surface cause => "Surface error: " ++ cause.message
  | configuration key reason => "Invalid configuration `" ++ key ++ "`: " ++ reason

end Tabula
