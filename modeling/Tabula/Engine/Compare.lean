import Tabula.Schema.Attribute
import Tabula.Value.Basic

/-! # Comparison of values

All values stand in one order: NULL, then the numbers of either class by what they are worth, then
the texts, then the byte strings. Texts compare by the bytes of what their collation leaves of them
(`Collation.key`).
-/

namespace Tabula

/-- What a collation compares of a text. -/
def Collation.key : Collation → String → String
  | binary, s => s
  | nocase, s => Text.asciiLower s
  | rtrim, s => String.ofList (s.toList.reverse.dropWhile (· = ' ')).reverse

/-- The order of byte strings, by the first difference. -/
def compareBytes : List UInt8 → List UInt8 → Ordering
  | [], [] => .eq
  | [], _ :: _ => .lt
  | _ :: _, [] => .gt
  | a :: as, b :: bs => (compare a b).then (compareBytes as bs)

namespace Value

/-- The place of a value's class in the order. -/
def rank : Value → Nat
  | null => 0
  | integer _ | real _ => 1
  | text _ => 2
  | blob _ => 3

/-- The order of two values under a collation. -/
def compare (c : Collation) : Value → Value → Ordering
  | integer a, integer b => Ord.compare a.toInt b.toInt
  | integer a, real y => ((y.compareInt? a.toInt).getD .eq).swap
  | real x, integer b => (x.compareInt? b.toInt).getD .eq
  | real x, real y => (x.compare? y).getD .eq
  | text a, text b => Ord.compare (c.key a) (c.key b)
  | blob a, blob b => compareBytes a b
  | v, w => Ord.compare v.rank w.rank

/-- The order of two values as a comparison sees it, which knows nothing of NULL. -/
def compare? (c : Collation) (v w : Value) : Option Ordering :=
  if v.isNull || w.isNull then none else some (v.compare c w)

/-- Whether two values are one value for a key. NULL is no value. -/
def same (c : Collation) (v w : Value) : Bool :=
  v.compare? c w == some .eq

end Value

end Tabula
