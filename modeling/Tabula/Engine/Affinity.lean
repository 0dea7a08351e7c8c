import Tabula.Engine.Numeral

/-! # Affinity

The storage class of a column is a leaning and no demand. A value that is stored in a column takes
the class of the column where it loses nothing (`StorageType.store`), and stays as it is otherwise;
an operand that is compared with a column does so too (`StorageType.operand`). A parameter that is
not a number counts as NULL (`Value.bound`).
-/

namespace Tabula

/-- The value of a parameter. -/
def Value.bound : Value → Value
  | .real x => if x.isNaN then .null else .real x
  | v => v

namespace Decimal

/-- The magnitude of `units * 2 ^ -1074` rounded to so many digits, a half upwards. -/
def rounded (count units : Nat) : Decimal :=
  let exponent := pointOf units - count
  let num := units * tenTo (-exponent).toNat
  let den := twoTo 1074 * tenTo exponent.toNat
  ⟨(2 * num + den) / (2 * den), exponent⟩

/-- The decimal without zeros at the end of its digits. -/
def stripped (d : Decimal) : Decimal :=
  let cs := digitChars d.digits
  let zeros := (cs.reverse.takeWhile (· = '0')).length
  ⟨d.digits / tenTo zeros, d.exponent + zeros⟩

end Decimal

namespace Binary64

/-- Exponent notation with a digit after the point and two in the exponent. -/
def scientificText (d : Decimal) : List Char :=
  let point (cs : List Char) : List Char :=
    match cs with
    | [] => []
    | [c] => [c, '.', '0']
    | c :: rest => c :: '.' :: rest
  let power := Nat.toDigits 10 d.leading.natAbs
  point (Decimal.digitChars d.digits) ++
    ['e', if d.leading < 0 then '-' else '+'] ++ List.replicate (2 - power.length) '0' ++ power

/-- The text of a number with fifteen digits at most, and one after the point at least. Zero has no
sign. -/
def columnText (x : Binary64) : String :=
  let sign := if x.isNegative && !x.isZero then ['-'] else []
  let body :=
    if !x.isFinite then ['I', 'n', 'f']
    else if x.isZero then ['0', '.', '0']
    else
      let d := (Decimal.rounded 15 x.units).stripped
      if -4 ≤ d.leading && d.leading ≤ 14 then RealLayout.positional d else scientificText d
  String.ofList (sign ++ body)

/-- The number as an integer if it is a whole one strictly between the ends of the stored
integers. -/
def wholeValue (x : Binary64) : Value :=
  match x.toInt? with
  | some n => if -twoTo 63 < n && n < twoTo 63 - 1 then .integer (.ofInt n) else .real x
  | none => .real x

end Binary64

namespace StorageType

/-- The value that a column keeps of a value that is stored in it. -/
def store : StorageType → Value → Value
  | integer, .real x => x.wholeValue
  | integer, .text s =>
    match (Numeral.ofText? s).map Numeral.value with
    | some (.real x) => x.wholeValue
    | some v => v
    | none => .text s
  | real, .integer n => .real (.ofInt n.toInt)
  | real, .real x => .real (if x.isZero then .zero else x)
  | real, .text s =>
    match Numeral.ofText? s with
    | some n => .real (if n.real.isZero then .zero else n.real)
    | none => .text s
  | text, .integer n => .text (toString n.toInt)
  | text, .real x => .text x.columnText
  | _, v => v

/-- The value that is compared with a column when the operand is given. -/
def operand : StorageType → Value → Value
  | integer, .text s => ((Numeral.ofText? s).map Numeral.value).getD (.text s)
  | real, .text s => ((Numeral.ofText? s).map Numeral.value).getD (.text s)
  | text, .integer n => .text (toString n.toInt)
  | text, .real x => .text x.columnText
  | _, v => v

end StorageType

end Tabula
