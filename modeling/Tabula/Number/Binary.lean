import Tabula.Number.Power

/-! # Binary floating-point numbers

A number of a binary interchange format is kept as its bit pattern, and everything said about it is
said in exact integer arithmetic. A finite number is a whole count of the format's least positive
number (`units`); rounding a ratio goes to the nearest such number, a tie to the even pattern, and
what is too large becomes infinite (`Format.round`).
-/

namespace Tabula

/-- The layout of a binary interchange format below its sign bit. -/
structure Format where
  /-- Bits of the fraction field. -/
  fraction : Nat
  /-- The exponent field of the infinite numbers. -/
  top : Nat
  /-- The least positive number is `2 ^ -scale`. -/
  scale : Nat

namespace Format

/-- The layout of double precision. -/
def double : Format := ⟨52, 2047, 1074⟩

/-- The layout of single precision. -/
def single : Format := ⟨23, 255, 149⟩

/-- The pattern of positive infinity; larger patterns are not numbers. -/
def infinity (f : Format) : Nat :=
  f.top * twoTo f.fraction

/-- How many least positive numbers a finite pattern stands for. -/
def units (f : Format) (code : Nat) : Nat :=
  if code < twoTo f.fraction then code
  else (twoTo f.fraction + code % twoTo f.fraction) * twoTo (code / twoTo f.fraction - 1)

/-- The quotient rounded to the nearest integer, a tie to the even one. -/
def divToEven (a b : Nat) : Nat :=
  let q := a / b
  let twice := 2 * (a % b)
  if twice < b then q
  else if b < twice then q + 1
  else q + q % 2

/-- The pattern nearest to `num / den`. -/
def round (f : Format) (num den : Nat) : Nat :=
  let scaled := num * twoTo f.scale
  let shift := Nat.log2 (scaled / den) - f.fraction
  min (shift * twoTo f.fraction + divToEven scaled (den * twoTo shift)) f.infinity

end Format

/-- A number in double precision, as its bit pattern. -/
structure Binary64 where
  /-- The sign bit above the pattern of the magnitude. -/
  bits : UInt64
deriving DecidableEq, Inhabited

/-- A number in single precision, as its bit pattern. -/
structure Binary32 where
  /-- The sign bit above the pattern of the magnitude. -/
  bits : UInt32
deriving DecidableEq, Inhabited

namespace Binary64

/-- Whether the sign bit is set. -/
def isNegative (x : Binary64) : Bool :=
  twoTo 63 ≤ x.bits.toNat

/-- The pattern of the magnitude. -/
def code (x : Binary64) : Nat :=
  x.bits.toNat % twoTo 63

/-- Whether the pattern is not a number. -/
def isNaN (x : Binary64) : Bool :=
  Format.double.infinity < x.code

/-- Whether the pattern is a finite number. -/
def isFinite (x : Binary64) : Bool :=
  x.code < Format.double.infinity

/-- Whether the number is zero, of either sign. -/
def isZero (x : Binary64) : Bool :=
  x.code == 0

/-- The number of a sign and a magnitude. -/
def ofCode (negative : Bool) (code : Nat) : Binary64 :=
  ⟨UInt64.ofNat (if negative then twoTo 63 + code else code)⟩

/-- Positive zero. -/
def zero : Binary64 := ofCode false 0

/-- The canonical pattern that is not a number. -/
def nan : Binary64 := ⟨0x7FF8000000000000⟩

/-- The magnitude as a count of `2 ^ -1074`; of use for finite numbers. -/
def units (x : Binary64) : Nat :=
  Format.double.units x.code

/-- The value of a finite number as a count of `2 ^ -1074`. -/
def scaled (x : Binary64) : Int :=
  if x.isNegative then -(x.units : Int) else x.units

/-- The number nearest to a ratio of given sign. -/
def ofRatio (negative : Bool) (num den : Nat) : Binary64 :=
  ofCode negative (Format.double.round num den)

/-- The number nearest to an integer. -/
def ofInt (n : Int) : Binary64 :=
  ofRatio (decide (n < 0)) n.natAbs 1

/-- The nearest number to the product of finite numbers. -/
def mul (x y : Binary64) : Binary64 :=
  ofRatio (x.isNegative != y.isNegative) (x.units * y.units) (twoTo 1074 * twoTo 1074)

/-- The nearest number to the quotient of finite numbers, the divisor not being zero. -/
def div (x y : Binary64) : Binary64 :=
  ofRatio (x.isNegative != y.isNegative) x.units y.units

/-- How two numbers compare, nothing if one of them is not a number; zeros of either sign agree. -/
def compare? (x y : Binary64) : Option Ordering :=
  if x.isNaN || y.isNaN then none
  else
    let key (z : Binary64) : Int := if z.isNegative then -(z.code : Int) else z.code
    some (compare (key x) (key y))

/-- How a number compares with an integer, exactly; nothing if it is not a number. -/
def compareInt? (x : Binary64) (n : Int) : Option Ordering :=
  if x.isNaN then none
  else if x.isFinite then some (compare x.scaled (n * twoTo 1074))
  else some (if x.isNegative then .lt else .gt)

/-- The integer of the same value, if there is one. -/
def toInt? (x : Binary64) : Option Int :=
  if x.isFinite && x.units % twoTo 1074 == 0 then some (x.scaled / twoTo 1074) else none

end Binary64

namespace Binary32

/-- Whether the sign bit is set. -/
def isNegative (x : Binary32) : Bool :=
  twoTo 31 ≤ x.bits.toNat

/-- The pattern of the magnitude. -/
def code (x : Binary32) : Nat :=
  x.bits.toNat % twoTo 31

/-- Whether the pattern is not a number. -/
def isNaN (x : Binary32) : Bool :=
  Format.single.infinity < x.code

/-- The number of a sign and a magnitude. -/
def ofCode (negative : Bool) (code : Nat) : Binary32 :=
  ⟨UInt32.ofNat (if negative then twoTo 31 + code else code)⟩

/-- The canonical pattern that is not a number. -/
def nan : Binary32 := ⟨0x7FC00000⟩

/-- The magnitude as a count of `2 ^ -149`; of use for finite numbers. -/
def units (x : Binary32) : Nat :=
  Format.single.units x.code

/-- The same number in double precision. -/
def widen (x : Binary32) : Binary64 :=
  if x.isNaN then .nan
  else if x.code = Format.single.infinity then .ofCode x.isNegative Format.double.infinity
  else .ofRatio x.isNegative x.units (twoTo 149)

end Binary32

/-- The nearest number in single precision. -/
def Binary64.narrow (x : Binary64) : Binary32 :=
  if x.isNaN then .nan
  else if x.isFinite then .ofCode x.isNegative (Format.single.round x.units (twoTo 1074))
  else .ofCode x.isNegative Format.single.infinity

end Tabula
