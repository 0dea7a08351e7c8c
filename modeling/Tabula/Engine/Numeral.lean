import Tabula.Value.Basic

/-! # Numerals

The texts that stand for a number in a table: a whole number, or a decimal with a point or a power
of ten, blanks of ASCII around it or none. A whole number that fits a stored integer is one;
any other number is the nearest one in double precision (`Numeral.ofText?`, `Numeral.value`).
-/

namespace Tabula

/-- A number as it is written. -/
structure Numeral where
  /-- Whether a minus sign stands in front. -/
  negative : Bool
  /-- All digits before the power of ten, read as one number. -/
  digits : Nat
  /-- How many digits these are. -/
  count : Nat
  /-- The power of ten of the last digit. -/
  exponent : Int
  /-- Whether there is neither a point nor a power of ten. -/
  whole : Bool
deriving DecidableEq

namespace Numeral

/-- Whether the character may stand before and after a number. -/
def isSpace (c : Char) : Bool :=
  c = ' ' || (9 ≤ c.toNat && c.toNat ≤ 13)

/-- The number that digits stand for. -/
def natural (digits : List Char) : Nat :=
  digits.foldl (fun n c => 10 * n + (c.toNat - '0'.toNat)) 0

/-- Whether a minus sign stands in front, and what follows the sign. -/
def takeSign : List Char → Bool × List Char
  | '-' :: rest => (true, rest)
  | '+' :: rest => (false, rest)
  | cs => (false, cs)

/-- The digits after a point, and what follows them; nothing without a point. -/
def takeFraction : List Char → Option (List Char) × List Char
  | '.' :: rest => (some (rest.takeWhile Char.isDigit), rest.dropWhile Char.isDigit)
  | cs => (none, cs)

/-- The power of ten that the whole rest stands for; nothing if it is none. -/
def power? (cs : List Char) : Option Int :=
  match cs with
  | c :: rest =>
    if c = 'e' || c = 'E' then
      let (negative, digits) := takeSign rest
      if digits.isEmpty || !digits.all Char.isDigit then none
      else some (if negative then -(natural digits : Int) else natural digits)
    else none
  | [] => none

/-- The number of a text. -/
def ofText? (s : String) : Option Numeral :=
  let body := ((s.toList.dropWhile isSpace).reverse.dropWhile isSpace).reverse
  let (negative, unsigned) := takeSign body
  let before := unsigned.takeWhile Char.isDigit
  let (fraction?, rest) := takeFraction (unsigned.dropWhile Char.isDigit)
  let fraction := fraction?.getD []
  let digits := before ++ fraction
  if digits.isEmpty then none
  else if rest.isEmpty then
    some ⟨negative, natural digits, digits.length, -fraction.length, fraction?.isNone⟩
  else
    (power? rest).map fun n => ⟨negative, natural digits, digits.length, n - fraction.length, false⟩

/-- The nearest number in double precision. Powers of ten beyond its range need not be written
out. -/
def real (n : Numeral) : Binary64 :=
  let exponent := max (-(n.count + 400 : Int)) (min 400 n.exponent)
  .ofRatio n.negative (n.digits * tenTo exponent.toNat) (tenTo (-exponent).toNat)

/-- The signed number of the digits. -/
def signed (n : Numeral) : Int :=
  if n.negative then -(n.digits : Int) else n.digits

/-- The value of the number. -/
def value (n : Numeral) : Value :=
  if n.whole && -twoTo 63 ≤ n.signed && n.signed < twoTo 63 then .integer (.ofInt n.signed)
  else .real n.real

end Numeral

end Tabula
