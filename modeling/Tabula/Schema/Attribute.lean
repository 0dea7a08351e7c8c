import Tabula.Text.Blank
import Tabula.Text.LetterCase

/-! # Attributes of columns

The closed sets that column annotations choose from: what to do with a row that violates a
constraint, how texts compare, and what becomes of referencing rows. Each is read from a text in
any ASCII case and between blanks.
-/

namespace Tabula

/-- What to do with a row that violates a constraint. -/
inductive ConflictPolicy where
  /-- Nothing is said, which leaves it to the engine. -/
  | unset
  | rollback
  | abort
  | fail
  | ignore
  | replace
deriving DecidableEq, Inhabited

namespace ConflictPolicy

def all : List ConflictPolicy := [unset, rollback, abort, fail, ignore, replace]

/-- The name of the policy in an annotation. -/
def name : ConflictPolicy → String
  | unset => "NONE"
  | rollback => "ROLLBACK"
  | abort => "ABORT"
  | fail => "FAIL"
  | ignore => "IGNORE"
  | replace => "REPLACE"

/-- The name of the policy in a statement, where nothing stands for an unset one. -/
def keyword? (p : ConflictPolicy) : Option String :=
  if p = unset then none else some p.name

/-- The policy of a name. -/
def parse? (s : String) : Option ConflictPolicy :=
  let wanted := Text.asciiUpper (Text.trim s)
  all.find? (·.name == wanted)

/-- The policy that a column's constraint states: a unique one aborts unless told otherwise. -/
def effective (p : ConflictPolicy) (unique : Bool) : ConflictPolicy :=
  if p = unset && unique then abort else p

/-- A policy is read back by its name. -/
theorem parse?_name (p : ConflictPolicy) : parse? p.name = some p := by
  cases p <;> decide +kernel

end ConflictPolicy

/-- How the texts of a column compare. -/
inductive Collation where
  /-- By bytes. -/
  | binary
  /-- By bytes after ASCII capitals are made small. -/
  | nocase
  /-- By bytes without the spaces at the end. -/
  | rtrim
deriving DecidableEq, Inhabited

namespace Collation

def all : List Collation := [binary, nocase, rtrim]

def name : Collation → String
  | binary => "BINARY"
  | nocase => "NOCASE"
  | rtrim => "RTRIM"

/-- The collation of a name. -/
def parse? (s : String) : Option Collation :=
  let wanted := Text.asciiUpper (Text.trim s)
  all.find? (·.name == wanted)

/-- A collation is read back by its name. -/
theorem parse?_name (c : Collation) : parse? c.name = some c := by
  cases c <;> decide +kernel

end Collation

/-- What becomes of the referencing rows when the row they reference is deleted. -/
inductive DeleteAction where
  | noAction
  | restrict
  | cascade
  | setNull
  | setDefault
deriving DecidableEq, Inhabited

namespace DeleteAction

def all : List DeleteAction := [noAction, restrict, cascade, setNull, setDefault]

def name : DeleteAction → String
  | noAction => "NO ACTION"
  | restrict => "RESTRICT"
  | cascade => "CASCADE"
  | setNull => "SET NULL"
  | setDefault => "SET DEFAULT"

/-- The action of a name, whose words may also be set apart by `-` or `_`. -/
def parse? (s : String) : Option DeleteAction :=
  let wanted := (Text.asciiUpper (Text.trim s)).map fun c => if c = '-' || c = '_' then ' ' else c
  all.find? (·.name == wanted)

/-- A delete action is read back by its name. -/
theorem parse?_name (a : DeleteAction) : parse? a.name = some a := by
  cases a <;> decide +kernel

end DeleteAction

end Tabula
