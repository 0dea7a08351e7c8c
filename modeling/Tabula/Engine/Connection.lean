import Tabula.Engine.Change
import Tabula.Engine.Reading

/-! # The engine

The state of the one connection to a database: its contents, what they were when the open
transaction began, and whether references are enforced. Outside of a transaction every statement
stands for itself. A refused statement leaves the transaction open, unless the answer to a violated
constraint was to undo it.
-/

namespace Tabula

/-- A connection to a database. -/
structure Engine where
  /-- What the database holds. -/
  contents : Contents
  /-- What the database held when the open transaction began, nothing if none is open. -/
  saved : Option Contents
  /-- Whether references are enforced. -/
  enforced : Bool
deriving DecidableEq

namespace Engine

/-- A connection to a new database. -/
def new (enforced : Bool) : Engine := ⟨.empty, none, enforced⟩

/-- Begins a transaction; nothing if one is open. -/
def begin? (e : Engine) : Option Engine :=
  match e.saved with
  | none => some { e with saved := some e.contents }
  | some _ => none

/-- Ends the open transaction with all that was done; nothing if none is open. -/
def commit? (e : Engine) : Option Engine :=
  e.saved.map fun _ => { e with saved := none }

/-- Undoes the open transaction, if there is one. -/
def rollback (e : Engine) : Engine :=
  { e with contents := e.saved.getD e.contents, saved := none }

/-- Undoes the open transaction; nothing if none is open. -/
def rollback? (e : Engine) : Option Engine :=
  e.saved.map fun _ => e.rollback

/-- Enforces references from now on, or no more. Within a transaction this has no effect. -/
def enforce (e : Engine) (on : Bool) : Engine :=
  if e.saved.isSome then e else { e with enforced := on }

/-- Runs a schema statement; nothing if it is refused. -/
def define (e : Engine) (s : SchemaStatement) : Option Engine :=
  (e.contents.define s).map fun c => { e with contents := c }

/-- Runs a statement that changes rows: the number of changed rows and the position of the last
inserted one, nothing if it is refused, and the engine after it. -/
def change (e : Engine) (f : Bool → Contents → Effect) : Option (Nat × Option Int64) × Engine :=
  match f e.enforced e.contents with
  | .done c changed last => (some (changed, last), { e with contents := c })
  | .refused c => (none, { e with contents := c })
  | .reverted => (none, e.rollback)

/-- Runs an insertion. -/
def insert (e : Engine) (s : InsertStatement) : Option (Nat × Option Int64) × Engine :=
  e.change fun enforced c => c.insert enforced s

/-- Runs an update. -/
def update (e : Engine) (s : UpdateStatement) : Option (Nat × Option Int64) × Engine :=
  e.change fun enforced c => c.update enforced s

/-- Runs a deletion. -/
def delete (e : Engine) (s : DeleteStatement) : Option (Nat × Option Int64) × Engine :=
  e.change fun enforced c => c.delete enforced s

/-- The values of parameters as the engine hands them back. -/
def echo (row : Row) : Row := row.map Value.bound

end Engine

end Tabula
