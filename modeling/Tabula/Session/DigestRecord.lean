import Tabula.Engine.Connection
import Tabula.Session.Error

/-! # The stored digest

A database remembers the digest of the schema that it was last brought to, in a table of its own
with one row. The table is looked for by its exact spelling; where another table goes by its name,
the digest can be neither stored nor read.
-/

namespace Tabula

/-- What a session answers, and the engine after it. -/
abbrev Answer (α : Type) := Except SessionError α × Engine

/-- The answer of a statement that the engine runs or refuses. -/
def Answer.ofChange {α : Type} (f : Nat × Option Int64 → α) :
    Option (Nat × Option Int64) × Engine → Answer α
  | (some n, e) => (.ok (f n), e)
  | (none, e) => (.error .database, e)

namespace DigestRecord

/-- The name of the table of the record. -/
def tableName : String := "keel_metadata"

/-- The key of the row. -/
def key : String := "schema_digest"

/-- The table of the record. -/
def table : Table where
  name := tableName
  model := tableName
  columns :=
    [(Column.plain "key" .text).asKey false, .plain "value" .text, .plain "updated_at" .text]
  associations := []

/-- The condition that the row meets. -/
def condition : Condition := .compare "key" .eq [.text key]

/-- Whether the table is there. -/
def isThere (e : Engine) : Bool :=
  e.contents.tables.any (·.name == tableName)

/-- The stored digest, if there is one. -/
def load (e : Engine) : Except SessionError (Option String) :=
  if !isThere e then .ok none
  else
    match e.contents.select ⟨tableName, ["value", "updated_at"], [condition], [], none, none⟩ with
    | some [] => .ok none
    | some ((.text digest :: _) :: _) => .ok (some digest)
    | _ => .error .database

/-- Creates the table unless it is there. -/
def ensure (e : Engine) : Answer Unit :=
  match e.define (.createTable table) with
  | some e => (.ok (), e)
  | none => (.error .database, e)

/-- Stores a digest in place of the one that is stored, with a note of when that was. -/
def save (stamp digest : String) (e : Engine) : Answer Unit :=
  match ensure e with
  | (.error x, e) => (.error x, e)
  | (.ok _, e) =>
    Answer.ofChange (fun _ => ()) <| e.insert
      ⟨.replace, tableName, table.columnNames, [[.text key, .text digest, .text stamp]]⟩

/-- Removes the stored digest. -/
def clear (e : Engine) : Answer Unit :=
  if isThere e then Answer.ofChange (fun _ => ()) (e.delete ⟨tableName, [condition]⟩)
  else (.ok (), e)

end DigestRecord

end Tabula
