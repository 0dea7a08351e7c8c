import Tabula.Value.Basic

/-! # Field types

The types of record fields that have a form as values: whole numbers of several widths, truth
values, real numbers of two precisions, texts, byte strings, and values as they are; each of them
also optional. `FieldType.Carrier` is what a field of the type holds, `read` takes it from a value
and `write` turns it back into one. Reading is more generous than writing: a real number may come
as an integer, bytes as a text, and any integer but zero is true.
-/

namespace Tabula

/-- The widths of whole-number fields. -/
inductive IntWidth where
  | i8
  | i16
  | i32
  | i64
  | u8
  | u16
  | u32
deriving DecidableEq, Inhabited

namespace IntWidth

/-- The name of the type in a record declaration. -/
def name : IntWidth → String
  | i8 => "i8"
  | i16 => "i16"
  | i32 => "i32"
  | i64 => "i64"
  | u8 => "u8"
  | u16 => "u16"
  | u32 => "u32"

/-- The least number of the width. -/
def least : IntWidth → Int
  | i8 => -128
  | i16 => -32768
  | i32 => -2147483648
  | i64 => -9223372036854775808
  | u8 | u16 | u32 => 0

/-- The greatest number of the width. -/
def greatest : IntWidth → Int
  | i8 => 127
  | i16 => 32767
  | i32 => 2147483647
  | i64 => 9223372036854775807
  | u8 => 255
  | u16 => 65535
  | u32 => 4294967295

/-- Whether a stored integer is a number of the width. -/
def Holds (w : IntWidth) (n : Int64) : Prop :=
  w.least ≤ n.toInt ∧ n.toInt ≤ w.greatest

instance (w : IntWidth) (n : Int64) : Decidable (w.Holds n) :=
  inferInstanceAs (Decidable (_ ∧ _))

end IntWidth

/-- The types of fields, apart from being optional. -/
inductive Scalar where
  | bool
  | int (width : IntWidth)
  | single
  | double
  | text
  | bytes
  | value
deriving DecidableEq, Inhabited

/-- Why a value is no value of a field type. -/
inductive ValueError where
  /-- The value is of another storage class than the type reads. -/
  | mismatch (expected : Scalar) (found : StorageType)
  /-- The integer is not a number of the width. -/
  | outOfRange (expected : IntWidth) (value : Int64)
  /-- NULL, and the type is not optional. -/
  | unexpectedNull (expected : Scalar)
deriving DecidableEq

namespace Scalar

/-- Every type that a record declaration can name. -/
def named : List Scalar :=
  [bool, int .i8, int .i16, int .i32, int .i64, int .u8, int .u16, int .u32, single, double, text,
    bytes]

/-- The name of the type in a record declaration. -/
def name : Scalar → String
  | bool => "bool"
  | int w => w.name
  | single => "f32"
  | double => "f64"
  | text => "String"
  | bytes => "Vec<u8>"
  | value => "SqlValue"

/-- The storage class that the type's values are written in, nothing if it may be any. -/
def storage? : Scalar → Option StorageType
  | bool => some .integer
  | int _ => some .integer
  | single => some .real
  | double => some .real
  | text => some .text
  | bytes => some .blob
  | value => none

/-- What a field of the type holds. -/
def Carrier : Scalar → Type
  | bool => Bool
  | int w => { n : Int64 // w.Holds n }
  | single => Binary32
  | double => Binary64
  | text => String
  | bytes => List UInt8
  | value => Value

/-- The refusal of a value by a type that reads none of its storage class. -/
def refuse (t : Scalar) (v : Value) : ValueError :=
  match v.storage? with
  | none => .unexpectedNull t
  | some found => .mismatch t found

/-- The double that a value holds, an integer taken for the nearest. Single precision is read by
way of it, and so are its refusals. -/
def readDouble (v : Value) : Except ValueError Binary64 :=
  match v with
  | .real x => .ok x
  | .integer n => .ok (.ofInt n.toInt)
  | v => .error (refuse double v)

/-- What a field of the type holds after reading a value. -/
def read : (t : Scalar) → Value → Except ValueError t.Carrier
  | bool, .integer n => .ok (n != 0 : Bool)
  | int w, .integer n =>
    if h : w.Holds n then .ok (⟨n, h⟩ : { n : Int64 // w.Holds n }) else .error (.outOfRange w n)
  | single, v => (readDouble v).map fun x => (x.narrow : Binary32)
  | double, v => (readDouble v).map fun x => (x : Binary64)
  | text, .text s => .ok (s : String)
  | bytes, .blob b => .ok (b : List UInt8)
  | bytes, .text s => .ok (s.toUTF8.toList : List UInt8)
  | value, v => .ok (v : Value)
  | t, v => .error (t.refuse v)

/-- The value of what a field of the type holds. -/
def write : (t : Scalar) → t.Carrier → Value
  | bool, (b : Bool) => .integer (if b then 1 else 0)
  | int _, n => .integer n.val
  | single, (x : Binary32) => .real x.widen
  | double, (x : Binary64) => .real x
  | text, (s : String) => .text s
  | bytes, (b : List UInt8) => .blob b
  | value, (v : Value) => v

/-- What a field of the type holds when nothing is read into it. -/
def default : (t : Scalar) → t.Carrier
  | bool => false
  | int w => ⟨0, by cases w <;> decide⟩
  | single => (⟨0⟩ : Binary32)
  | double => Binary64.zero
  | text => ""
  | bytes => ([] : List UInt8)
  | value => Value.null

/-- The last segment of a path, whose segments are set apart by `::`. -/
def lastSegment (path : List Char) : List Char :=
  let rec go : List Char → List Char
    | ':' :: ':' :: _ => []
    | c :: rest => c :: go rest
    | [] => []
  (go path.reverse).reverse

/-- The type that a type expression names, without regard to blanks and to the path before it.
The path has no arguments, except before a byte string. -/
def ofTypeText? (s : String) : Option Scalar :=
  let cs := s.toList.filter fun c => !Text.isBlank c
  let segment := String.ofList (lastSegment cs)
  named.find? fun t => t.name == segment && (t == bytes || !cs.contains '<')

end Scalar

namespace ValueError

/-- The message of an error. -/
def message : ValueError → String
  | mismatch expected found => "expected " ++ expected.name ++ ", found " ++ found.name
  | outOfRange expected value =>
    toString value.toInt ++ " is out of range for " ++ expected.name
  | unexpectedNull expected => "unexpected NULL for " ++ expected.name

end ValueError

/-- The type of a record field. -/
structure FieldType where
  scalar : Scalar
  /-- Whether nothing may be there. -/
  optional : Bool
deriving DecidableEq, Inhabited

namespace FieldType

/-- What a field of the type holds. -/
def Carrier (t : FieldType) : Type :=
  if t.optional then Option t.scalar.Carrier else t.scalar.Carrier

/-- What a field of the type holds after reading a value; NULL leaves an optional field empty. -/
def read : (t : FieldType) → Value → Except ValueError t.Carrier
  | ⟨s, false⟩, v => s.read v
  | ⟨_, true⟩, .null => .ok none
  | ⟨s, true⟩, v => (s.read v).map some

/-- The value of what a field of the type holds. -/
def write : (t : FieldType) → t.Carrier → Value
  | ⟨s, false⟩, x => s.write x
  | ⟨s, true⟩, x =>
    match (x : Option s.Carrier) with
    | none => .null
    | some y => s.write y

/-- What a field of the type holds when nothing is read into it. -/
def default : (t : FieldType) → t.Carrier
  | ⟨s, false⟩ => s.default
  | ⟨s, true⟩ => (none : Option s.Carrier)

end FieldType

/-- The paths under which an optional type can be named. -/
def optionPaths : List String :=
  ["Option<", "std::option::Option<", "core::option::Option<", "::std::option::Option<",
    "::core::option::Option<"]

/-- The rest of a text after a beginning. -/
def stripStart? : List Char → List Char → Option (List Char)
  | [], rest => some rest
  | _ :: _, [] => none
  | p :: start, c :: rest => if p = c then stripStart? start rest else none

/-- Whether a type expression is optional, and the type expression inside. -/
def splitOption (s : String) : Bool × String :=
  let cs := Text.trimChars s.toList
  let inner (path : String) : Option (List Char) :=
    (stripStart? path.toList cs).bind fun rest =>
      if rest.getLast? = some '>' then some rest.dropLast else none
  match optionPaths.findSome? inner with
  | some body => (true, String.ofList (Text.trimChars body))
  | none => (false, String.ofList cs)

/-- The field type that a type expression names. -/
def FieldType.ofText? (s : String) : Option FieldType :=
  let (optional, inner) := splitOption s
  (Scalar.ofTypeText? inner).map (⟨·, optional⟩)

/-- The storage class of the values of a type expression, if it names a type that has one. -/
def StorageType.infer? (s : String) : Option StorageType :=
  (Scalar.ofTypeText? s).bind Scalar.storage?

end Tabula
