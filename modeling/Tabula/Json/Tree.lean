import Tabula.Text.Hex

/-! # JSON texts of values

A value as a tree, and its text without blanks between the tokens. In a text the quote, the
backslash and the control characters are escaped, those with a letter of their own by it.
-/

namespace Tabula.Json

/-- A value without numbers. -/
inductive Tree where
  | null
  | bool (b : Bool)
  | text (s : String)
  | array (elements : List Tree)
  | object (fields : List (String × Tree))

/-- The character as it stands in a text. -/
def escapeChar (c : Char) : List Char :=
  match c with
  | '"' => ['\\', '"']
  | '\\' => ['\\', '\\']
  | '\x08' => ['\\', 'b']
  | '\x0c' => ['\\', 'f']
  | '\n' => ['\\', 'n']
  | '\r' => ['\\', 'r']
  | '\t' => ['\\', 't']
  | c =>
    if c.toNat < 0x20 then
      ['\\', 'u', '0', '0', Text.hexDigit (c.toNat / 16), Text.hexDigit (c.toNat % 16)]
    else [c]

/-- A text in quotes. -/
def writeText (s : String) : List Char :=
  '"' :: (s.toList.flatMap escapeChar ++ ['"'])

mutual

/-- The characters of a value. -/
def Tree.write : Tree → List Char
  | .null => "null".toList
  | .bool true => "true".toList
  | .bool false => "false".toList
  | .text s => writeText s
  | .array elements => '[' :: writeElements elements
  | .object fields => '\x7b' :: writeFields fields

/-- The characters of the elements of an array and of its end. -/
def writeElements : List Tree → List Char
  | [] => [']']
  | [t] => t.write ++ [']']
  | t :: u :: rest => t.write ++ ',' :: writeElements (u :: rest)

/-- The characters of the fields of an object and of its end. -/
def writeFields : List (String × Tree) → List Char
  | [] => ['\x7d']
  | [(key, t)] => writeText key ++ ':' :: (t.write ++ ['\x7d'])
  | (key, t) :: f :: rest => writeText key ++ ':' :: (t.write ++ ',' :: writeFields (f :: rest))

end

/-- The text of a value. -/
def Tree.render (t : Tree) : String :=
  String.ofList t.write

/-- The value of a text or of its absence. -/
def Tree.ofText? : Option String → Tree
  | some s => .text s
  | none => .null

end Tabula.Json
