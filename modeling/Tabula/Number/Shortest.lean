import Tabula.Number.Binary

/-! # Shortest decimals

The fewest decimal digits that read back as a given number. The reals that round to a number form
an interval, closed exactly when the pattern is even. For one digit, two digits and so on, the
number's two neighbours on that decimal grid are tried; the first grid with a neighbour in the
interval wins, and of two neighbours the nearer. Of two equally near, a layout chooses one
(`Tie`).
-/

namespace Tabula

/-- A decimal `digits * 10 ^ exponent`. -/
structure Decimal where
  /-- The digits, read as one number. -/
  digits : Nat
  /-- The power of ten of the last digit. -/
  exponent : Int
deriving DecidableEq, Inhabited

/-- Which of two neighbours on a grid is taken that are equally near. -/
inductive Tie where
  /-- The larger one. -/
  | up
  /-- The one that ends in an even digit. -/
  | even
deriving DecidableEq, Inhabited

/-- The choice between a number and the next one. -/
def Tie.choose (tie : Tie) (below : Nat) : Nat :=
  if tie = even && below % 2 = 0 then below else below + 1

namespace Decimal

/-- The digits of a natural number in base ten. -/
def digitChars (n : Nat) : List Char :=
  Nat.toDigits 10 n

/-- The power of ten of the first digit. -/
def leading (d : Decimal) : Int :=
  d.exponent + (digitChars d.digits).length - 1

/-- The position of the decimal point before the first digit of `units * 2 ^ -1074`. -/
def pointOf (units : Nat) : Int :=
  (digitChars (units * tenTo 400 / twoTo 1074)).length - 400

/-- The neighbour in the interval on the grid of `count` digits, if there is one. -/
def onGrid? (tie : Tie) (code : Nat) (count : Nat) : Option Decimal :=
  let f := Format.double
  let units := f.units code
  let exponent := pointOf units - count
  let up := tenTo (-exponent).toNat
  let den := twoTo 1074 * tenTo exponent.toNat
  let num := units * up
  let low := (f.units (code - 1) + units) * up
  let high := (units + f.units (code + 1)) * up
  let inside (n : Nat) : Bool :=
    let twice := 2 * n * den
    if code % 2 = 0 then low ≤ twice && twice ≤ high else low < twice && twice < high
  let below := num / den
  let above := below + 1
  match inside below, inside above with
  | true, true =>
    match compare (2 * num) ((below + above) * den) with
    | .lt => some ⟨below, exponent⟩
    | .eq => some ⟨tie.choose below, exponent⟩
    | .gt => some ⟨above, exponent⟩
  | true, false => some ⟨below, exponent⟩
  | false, true => some ⟨above, exponent⟩
  | false, false => none

/-- The shortest decimal that reads back as the finite positive number of this pattern. -/
def shortest (tie : Tie) (code : Nat) : Decimal :=
  ((List.range' 1 17).findSome? (onGrid? tie code)).getD ⟨0, 0⟩

end Decimal

/-- How real numbers are written. -/
structure RealLayout where
  /-- The least power of ten of the first digit that is written positionally. -/
  least : Int
  /-- The greatest power of ten of the first digit that is written positionally. -/
  most : Int
  /-- Which of two equally near decimals is written. -/
  tie : Tie

namespace RealLayout

/-- Positional notation, with a point and at least one digit after it. -/
def positional (d : Decimal) : List Char :=
  let cs := Decimal.digitChars d.digits
  if 0 ≤ d.exponent then cs ++ List.replicate d.exponent.toNat '0' ++ ['.', '0']
  else
    let places := (-d.exponent).toNat
    if places < cs.length then
      cs.take (cs.length - places) ++ '.' :: cs.drop (cs.length - places)
    else '0' :: '.' :: List.replicate (places - cs.length) '0' ++ cs

/-- Exponent notation: a point only between digits, and a sign only when negative. -/
def scientific (d : Decimal) : List Char :=
  let point (cs : List Char) : List Char :=
    match cs with
    | [] => []
    | [c] => [c]
    | c :: rest => c :: '.' :: rest
  point (Decimal.digitChars d.digits) ++ 'e' :: (toString d.leading).toList

/-- The text of a finite magnitude. -/
def magnitude (l : RealLayout) (code : Nat) : List Char :=
  if code = 0 then ['0', '.', '0']
  else
    let d := Decimal.shortest l.tie code
    if l.least ≤ d.leading && d.leading ≤ l.most then positional d else scientific d

/-- The text of a number. -/
def render (l : RealLayout) (x : Binary64) : String :=
  if x.isNaN then "NaN"
  else
    let sign := if x.isNegative then ['-'] else []
    let body := if x.isFinite then l.magnitude x.code else ['i', 'n', 'f']
    String.ofList (sign ++ body)

end RealLayout

end Tabula
