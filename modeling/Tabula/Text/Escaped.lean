import Tabula.Text.HiddenTable
import Tabula.Text.LetterCase

/-! # Texts in messages

How a message quotes a text that it was given: between double quotes, with an escape for a quote, a
backslash and every character that would not show.
-/

namespace Tabula.Text

/-- A character as a message shows it. -/
def showChar (c : Char) : List Char :=
  if c = '\x00' then ['\\', '0']
  else if c = '\t' then ['\\', 't']
  else if c = '\r' then ['\\', 'r']
  else if c = '\n' then ['\\', 'n']
  else if c = '\\' || c = '"' then ['\\', c]
  else if inRanges hiddenRanges c then
    ['\\', 'u', '\x7b'] ++ Nat.toDigits 16 c.toNat ++ ['\x7d']
  else [c]

/-- A text as a message shows it. -/
def showText (s : String) : String :=
  String.ofList ('"' :: s.toList.flatMap showChar ++ ['"'])

end Tabula.Text
