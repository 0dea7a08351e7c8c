import Tabula.Number.Shortest
import Tabula.Text.Blank
import Tabula.Text.Hex
import Tabula.Text.LetterCase

/-! # Values and their storage classes

A value is what a cell of a table holds and what a statement takes as a parameter: NULL, or a value
of one of four storage classes. Statements carry values apart from their text; `Value.inlineText` is
the form of a value inside a text, for people to read.
-/

namespace Tabula

/-- The storage classes of values that are not NULL, which are also the types of columns. -/
inductive StorageType where
  | integer
  | text
  | real
  | blob
deriving DecidableEq, Inhabited

namespace StorageType

/-- Every storage class. -/
def all : List StorageType := [integer, text, real, blob]

/-- The name of the storage class in a statement. -/
def name : StorageType → String
  | integer => "INTEGER"
  | text => "TEXT"
  | real => "REAL"
  | blob => "BLOB"

/-- The storage class of a name, in any case and between blanks. -/
def parse? (s : String) : Option StorageType :=
  let wanted := Text.asciiUpper (Text.trim s)
  all.find? (·.name == wanted)

/-- A storage class is read back by its name. -/
theorem parse?_name (t : StorageType) : parse? t.name = some t := by
  cases t <;> decide +kernel

end StorageType

/-- A value of a cell or of a parameter. -/
inductive Value where
  | null
  | integer (n : Int64)
  | real (x : Binary64)
  | text (s : String)
  | blob (bytes : List UInt8)
deriving DecidableEq, Inhabited

namespace Value

/-- How real numbers are written in statements: positionally from `0.0001` up to `10 ^ 16`, and of
two equally near decimals the larger one. -/
def realLayout : RealLayout := ⟨-4, 15, .up⟩

/-- The storage class of a value, nothing for NULL. -/
def storage? : Value → Option StorageType
  | null => none
  | integer _ => some .integer
  | real _ => some .real
  | text _ => some .text
  | blob _ => some .blob

/-- Whether the value is NULL. -/
def isNull (v : Value) : Bool :=
  v.storage?.isNone

/-- The name of the value's storage class, with NULL for a class of its own. -/
def typeName (v : Value) : String :=
  match v.storage? with
  | none => "NULL"
  | some t => t.name

/-- The text with every single quote written twice. -/
def escapeQuotes (s : String) : String :=
  String.ofList (s.toList.flatMap fun c => if c = '\'' then ['\'', '\''] else [c])

/-- The value as it would stand inside a statement. -/
def inlineText : Value → String
  | null => "NULL"
  | integer n => toString n.toInt
  | real x => realLayout.render x
  | text s => "'" ++ escapeQuotes s ++ "'"
  | blob bytes => "X'" ++ String.ofList (Text.hexUpper bytes) ++ "'"

/-- What stands for a parameter in a statement. -/
def placeholder : String := "?"

end Value

end Tabula
