import Tabula.Number.Shortest
import Tabula.Text.Escaped

/-! # Errors of reading JSON

A text ends too early, is malformed, or holds something of another shape than asked for.
-/

namespace Tabula.Json

/-- A number in a text. Whole numbers that fit a word of sixty-four bits are kept as they are. -/
inductive Number where
  | whole (n : Int)
  | real (x : Binary64)
deriving DecidableEq

/-- What stands where something else was asked for. -/
inductive Found where
  | null
  | bool (b : Bool)
  | number (n : Number)
  | text (s : String)
  | array
  | object
deriving DecidableEq

/-- How a value of a text differs in shape from the value asked for. -/
inductive ShapeError where
  | missingField (name : String)
  | unknownField (name : String) (known : List String)
  | duplicateField (name : String)
  | invalidType (found : Found) (expected : String)
  | invalidValue (n : Int) (expected : String)
  /-- An array ends before the record that it stands for is complete. -/
  | invalidLength (length : Nat) (record : String) (size : Nat)
deriving DecidableEq

/-- Why a text cannot be read. -/
inductive Error where
  /-- The text ends too early. -/
  | ended
  /-- The text is no JSON, or goes on where it should end. -/
  | malformed
  /-- The text is well-formed as far as it was read, but of another shape. -/
  | shape (e : ShapeError)
deriving DecidableEq

/-- How real numbers are written in messages: positionally from `0.00001` up to `10 ^ 16`, and of
two equally near decimals the even one. -/
def realLayout : RealLayout := ⟨-5, 15, .even⟩

/-- The words for what was found. -/
def Found.describe : Found → String
  | null => "null"
  | bool b => "boolean `" ++ toString b ++ "`"
  | number (.whole n) => "integer `" ++ toString n ++ "`"
  | number (.real x) => "floating point `" ++ realLayout.render x ++ "`"
  | text s => "string " ++ Text.showText s
  | array => "sequence"
  | object => "map"

/-- The message, with what was found and what was expected. -/
def ShapeError.message : ShapeError → String
  | missingField name => "missing field `" ++ name ++ "`"
  | unknownField name known =>
    "unknown field `" ++ name ++ "`, expected one of " ++
      ", ".intercalate (known.map fun k => "`" ++ k ++ "`")
  | duplicateField name => "duplicate field `" ++ name ++ "`"
  | invalidType found expected =>
    "invalid type: " ++ found.describe ++ ", expected " ++ expected
  | invalidValue n expected =>
    "invalid value: " ++ (Found.number (.whole n)).describe ++ ", expected " ++ expected
  | invalidLength length record size =>
    "invalid length " ++ toString length ++ ", expected struct " ++ record ++ " with " ++
      toString size ++ " elements"

end Tabula.Json
