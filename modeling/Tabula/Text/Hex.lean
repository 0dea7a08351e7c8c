/-! # Bytes in hexadecimal

Two digits a byte, the high one first. Reading takes digits of either case.
-/

namespace Tabula.Text

/-- The lower-case hexadecimal digit of a number below sixteen. -/
def hexDigit (n : Nat) : Char :=
  Nat.digitChar n

/-- The value of a hexadecimal digit. -/
def hexValue? (c : Char) : Option Nat :=
  if '0' ≤ c && c ≤ '9' then some (c.toNat - '0'.toNat)
  else if 'a' ≤ c && c ≤ 'f' then some (c.toNat - 'a'.toNat + 10)
  else if 'A' ≤ c && c ≤ 'F' then some (c.toNat - 'A'.toNat + 10)
  else none

/-- The bytes as lower-case hexadecimal digits. -/
def hexLower (bytes : List UInt8) : List Char :=
  bytes.flatMap fun b => [hexDigit (b.toNat / 16), hexDigit (b.toNat % 16)]

/-- The lower-case hexadecimal digits of a number below `16 ^ count`. -/
def hexNumber : (count : Nat) → Nat → List Char
  | 0, _ => []
  | count + 1, n => hexNumber count (n / 16) ++ [hexDigit (n % 16)]

/-- The number of hexadecimal digits. -/
def unhexNumber? (cs : List Char) : Option Nat :=
  cs.foldlM (fun n c => (hexValue? c).map (16 * n + ·)) 0

/-- The bytes as upper-case hexadecimal digits. -/
def hexUpper (bytes : List UInt8) : List Char :=
  (hexLower bytes).map Char.toUpper

/-- The bytes that pairs of hexadecimal digits stand for. -/
def unhex? : List Char → Option (List UInt8)
  | [] => some []
  | [_] => none
  | a :: b :: rest => do
    let high ← hexValue? a
    let low ← hexValue? b
    let bytes ← unhex? rest
    some (UInt8.ofNat (16 * high + low) :: bytes)

end Tabula.Text
