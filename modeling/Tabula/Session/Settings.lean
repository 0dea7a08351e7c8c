import Tabula.Schema.DeclarationJson
import Tabula.Session.Error

/-! # Settings of sessions

Where the database is and how a session treats it. Settings come from defaults, from a JSON text, or
from the texts of two variables of the environment; whatever is not said keeps its default.
-/

namespace Tabula

/-- The settings of a session. -/
structure Settings where
  /-- Where the database is. -/
  url : String := "sqlite::memory:"
  /-- How many connections there are at most. -/
  maxConnections : UInt32 := 1
  /-- Whether references are enforced. -/
  foreignKeys : Bool := true
  /-- Whether a missing database is created. -/
  createIfMissing : Bool := true
  /-- Whether migrations are only reported. -/
  dryRun : Bool := false
  /-- How many seconds a connection is waited for. -/
  acquireTimeout : UInt64 := 30
deriving DecidableEq

namespace Settings

def shape : Json.Shape Settings where
  name := "DatabaseOptions"
  initial := {}
  fields := [
    defaulted "url" Json.text fun v o => { o with url := v },
    defaulted "max_connections" (Json.natural (twoTo 32 - 1) "u32") fun v o =>
      { o with maxConnections := .ofNat v },
    defaulted "foreign_keys" Json.bool fun v o => { o with foreignKeys := v },
    defaulted "create_if_missing" Json.bool fun v o => { o with createIfMissing := v },
    defaulted "dry_run" Json.bool fun v o => { o with dryRun := v },
    defaulted "acquire_timeout_secs" (Json.natural (twoTo 64 - 1) "u64") fun v o =>
      { o with acquireTimeout := .ofNat v }]

def ofJson (s : String) : Except Json.Error Settings :=
  Json.decode (Json.record shape) s

/-- The variable that holds the place of the database. -/
def urlVariable : String := "KEEL_DATABASE_URL"

/-- The variable that holds the number of connections. -/
def maxConnectionsVariable : String := "KEEL_MAX_CONNECTIONS"

/-- The number of decimal digits, after a plus sign or none. -/
def decimal? (cs : List Char) : Option Nat :=
  let digits :=
    match cs with
    | '+' :: rest => rest
    | cs => cs
  if digits.isEmpty || !digits.all Char.isDigit then none
  else some (digits.foldl (fun n c => 10 * n + (c.toNat - '0'.toNat)) 0)

/-- The positive word of thirty-two bits that a text stands for, with blanks around it or none. -/
def positiveWord? (s : String) : Option UInt32 :=
  match decimal? (Text.trimChars s.toList) with
  | some n => if 0 < n ∧ n < twoTo 32 then some (.ofNat n) else none
  | none => none

/-- The settings of the texts of two variables, each of which may be unset. -/
def ofEnvironment (url maxConnections : Option String) : Except SessionError Settings := do
  let settings : Settings := { url := url.getD ({} : Settings).url }
  match maxConnections with
  | none => return settings
  | some raw =>
    match positiveWord? raw with
    | some n => return { settings with maxConnections := n }
    | none =>
      throw <| .configuration maxConnectionsVariable <|
        "expected a positive integer, got \"" ++ raw ++ "\""

/-- Whether the first text occurs in the second. -/
def occurs (part : List Char) : List Char → Bool
  | [] => part.isEmpty
  | c :: rest => part.isPrefixOf (c :: rest) || occurs part rest

/-- Whether the database lives in memory only. -/
def isMemory (s : Settings) : Bool :=
  occurs ":memory:".toList s.url.toList || occurs "mode=memory".toList s.url.toList

/-- The settings, if a session can be opened with them: it needs a connection. -/
def checked (s : Settings) : Except SessionError Settings :=
  if s.maxConnections = 0 then .error (.configuration "max_connections" "must be at least 1")
  else .ok s

end Settings

end Tabula
