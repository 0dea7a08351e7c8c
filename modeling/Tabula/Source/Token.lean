import Tabula.Text.Blank
import Tabula.Text.Escaped
import Tabula.Text.Hex

/-! # Tokens of record declarations

The source text of a record declaration, cut into tokens and put into a tree along its brackets.
Comments are left out, except for those that document: they count as an attribute. A text has no
tokens if its brackets or quotes do not match or a character begins no token.
-/

namespace Tabula.Source

/-- The kinds of brackets. -/
inductive Delimiter where
  | paren
  | bracket
  | brace
deriving DecidableEq, Inhabited

namespace Delimiter

/-- The opening bracket. -/
def opening : Delimiter → Char
  | paren => '('
  | bracket => '['
  | brace => '\x7b'

/-- The closing bracket. -/
def closing : Delimiter → Char
  | paren => ')'
  | bracket => ']'
  | brace => '\x7d'

/-- Every kind of brackets. -/
def all : List Delimiter := [paren, bracket, brace]

end Delimiter

/-- A token, with everything between two brackets as one token. -/
inductive Token where
  /-- A name or a keyword; a raw name with its mark. -/
  | ident (name : String)
  /-- A quote mark and a name. -/
  | lifetime (name : String)
  /-- A mark, such as a comma. -/
  | punct (mark : String)
  /-- A text in quotes: the text that it stands for, and how it is written. -/
  | text (value written : String)
  /-- Any other literal, as it is written. -/
  | literal (written : String)
  | group (d : Delimiter) (inner : List Token)
deriving Inhabited

mutual

/-- The token as it is written, without blanks. -/
def Token.written : Token → String
  | .ident name => name
  | .lifetime name => "'" ++ name
  | .punct mark => mark
  | .text _ written | .literal written => Text.removeSpaces written
  | .group d inner =>
    String.singleton d.opening ++ writtenAll inner ++ String.singleton d.closing

/-- The tokens as they are written, without blanks. -/
def writtenAll : List Token → String
  | [] => ""
  | t :: ts => t.written ++ writtenAll ts

end

/-! ## Flat tokens -/

/-- A token before brackets are matched. -/
inductive Flat where
  | one (t : Token)
  | opening (d : Delimiter)
  | closing (d : Delimiter)

/-- What a piece of text is cut into, and the rest. -/
abbrev Cut := Option (List Flat × List Char)

/-- Whether a name may begin with the character. Letters beyond ASCII count as such. -/
def beginsName (c : Char) : Bool :=
  c.isAlpha || c = '_' || (0x80 ≤ c.toNat && !Text.inRanges Text.hiddenRanges c)

/-- Whether a name may go on with the character. -/
def continuesName (c : Char) : Bool :=
  beginsName c || c.isDigit

/-- Whether the text is a name or a keyword. -/
def isWord (s : String) : Bool :=
  match s.toList with
  | c :: cs => beginsName c && cs.all continuesName
  | [] => false

/-- The number that hexadecimal digits stand for. -/
def hexNumber? (cs : List Char) : Option Nat :=
  cs.foldlM (fun n c => (Text.hexValue? c).map (16 * n + ·)) 0

/-- The character of an escape in quotes and the rest, where the escape goes on after its
backslash. -/
def escape? : List Char → Option (Char × List Char)
  | 'n' :: rest => some ('\n', rest)
  | 'r' :: rest => some ('\r', rest)
  | 't' :: rest => some ('\t', rest)
  | '0' :: rest => some ('\x00', rest)
  | '\\' :: rest => some ('\\', rest)
  | '\'' :: rest => some ('\'', rest)
  | '"' :: rest => some ('"', rest)
  | 'x' :: a :: b :: rest => do
    let n ← hexNumber? [a, b]
    if n < 0x80 then some (Char.ofNat n, rest) else none
  | 'u' :: '\x7b' :: rest => do
    let digits := (rest.takeWhile (· != '\x7d')).filter (· != '_')
    let n ← hexNumber? digits
    match rest.dropWhile (· != '\x7d') with
    | '\x7d' :: rest =>
      if digits.isEmpty || 6 < digits.length then none
      else if n.isValidChar then some (Char.ofNat n, rest) else none
    | _ => none
  | _ => none

/-- What a token is written as that is followed by the given rest. -/
def consumed (cs rest : List Char) : String :=
  String.ofList (cs.take (cs.length - rest.length))

/-- Whether blanks after a backslash at the end of a line are left out. -/
def isLineBlank (c : Char) : Bool :=
  c = ' ' || c = '\t' || c = '\n' || c = '\r'

/-- The text up to its closing quote, and the rest, read in at most `fuel` steps. -/
def quotedWithin? : (fuel : Nat) → List Char → Option (List Char × List Char)
  | 0, _ => none
  | _ + 1, [] => none
  | _ + 1, '"' :: rest => some ([], rest)
  | fuel + 1, '\\' :: '\n' :: rest => quotedWithin? fuel (rest.dropWhile isLineBlank)
  | fuel + 1, '\\' :: rest => do
    let (c, rest) ← escape? rest
    let (cs, rest) ← quotedWithin? fuel rest
    some (c :: cs, rest)
  | fuel + 1, '\r' :: '\n' :: rest => (quotedWithin? fuel rest).map fun r => ('\n' :: r.1, r.2)
  | fuel + 1, c :: rest => (quotedWithin? fuel rest).map fun r => (c :: r.1, r.2)

/-- The text up to its closing quote, and the rest. Each step reads a character at least. -/
def quotedText? (cs : List Char) : Option (List Char × List Char) :=
  quotedWithin? (cs.length + 1) cs

/-- The text up to a quote followed by the given hash marks, and the rest. -/
def rawText? (hashes : Nat) : List Char → Option (List Char × List Char)
  | [] => none
  | c :: rest =>
    if c = '"' && (rest.take hashes).length = hashes && (rest.take hashes).all (· = '#') then
      some ([], rest.drop hashes)
    else (rawText? hashes rest).map fun r => (c :: r.1, r.2)

/-- The raw text whose hash marks begin here, and the rest. -/
def rawTextFrom? (cs : List Char) : Option (List Char × List Char) :=
  match cs.dropWhile (· == '#') with
  | '"' :: rest => rawText? (cs.takeWhile (· == '#')).length rest
  | _ => none

/-- The rest after a comment in stars, which may hold others, read in at most `fuel` steps. -/
def afterComment? : (fuel depth : Nat) → List Char → Option (List Char)
  | 0, _, _ => none
  | fuel + 1, depth, '/' :: '*' :: rest => afterComment? fuel (depth + 1) rest
  | _ + 1, 0, '*' :: '/' :: rest => some rest
  | fuel + 1, depth + 1, '*' :: '/' :: rest => afterComment? fuel depth rest
  | fuel + 1, depth, _ :: rest => afterComment? fuel depth rest
  | _ + 1, _, [] => none

/-- The attribute that a documenting comment counts as. -/
def docAttribute (inner : Bool) (text : List Char) : List Flat :=
  let value := String.ofList text
  (.one (.punct "#") :: if inner then [.one (.punct "!")] else []) ++
    [.opening .bracket, .one (.ident "doc"), .one (.punct "="),
      .one (.text value (Text.showText value)), .closing .bracket]

/-- The tokens of a comment from its second character on, and the rest. -/
def comment? : List Char → Cut
  | '/' :: rest =>
    let line := rest.takeWhile (· != '\n')
    let after := rest.dropWhile (· != '\n')
    match line with
    | '/' :: '/' :: _ => some ([], after)
    | '/' :: text => some (docAttribute false text, after)
    | '!' :: text => some (docAttribute true text, after)
    | _ => some ([], after)
  | '*' :: rest => do
    let after ← afterComment? (rest.length + 1) 0 rest
    let body := rest.take (rest.length - after.length - 2)
    match body with
    | '*' :: '*' :: _ => some ([], after)
    | '*' :: c :: text => some (docAttribute false (c :: text), after)
    | '!' :: text => some (docAttribute true text, after)
    | _ => some ([], after)
  | _ => none

/-- The character that stands in quote marks, from behind the first of them on, and the rest. -/
def quotedChar? : List Char → Option (Char × List Char)
  | '\\' :: rest => do
    let (c, after) ← escape? rest
    match after with
    | '\'' :: after => some (c, after)
    | _ => none
  | c :: '\'' :: rest => if c = '\'' then none else some (c, rest)
  | _ => none

/-- The token of a text in quotes. -/
def textToken (value : List Char) (written : String) : Token :=
  .text (String.ofList value) written

/-- The token of any other literal. -/
def literalToken {α : Type} (_ : α) (written : String) : Token :=
  .literal written

/-- What was read off the front of the characters, as a token. -/
def asToken {α : Type} (token : α → String → Token) (cs : List Char)
    (read : Option (α × List Char)) : Cut :=
  read.map fun r => ([.one (token r.1 (consumed cs r.2))], r.2)

/-- The lifetime after a single quote mark, and the rest. -/
def lifetime? : List Char → Cut
  | c :: rest =>
    if beginsName c then
      some ([.one (.lifetime (String.ofList (c :: rest.takeWhile continuesName)))],
        rest.dropWhile continuesName)
    else none
  | [] => none

/-- The token after a single quote mark, and the rest: a character or a lifetime. -/
def afterMark? (cs : List Char) : Cut :=
  (asToken literalToken ('\'' :: cs) (quotedChar? cs)).or (lifetime? cs)

/-- The number that begins here, with its suffix, and the rest. -/
def number (cs : List Char) : List Char × List Char :=
  let whole := cs.takeWhile continuesName
  match cs.dropWhile continuesName with
  | '.' :: c :: rest =>
    if c.isDigit then
      (whole ++ '.' :: (c :: rest).takeWhile continuesName, (c :: rest).dropWhile continuesName)
    else (whole, '.' :: c :: rest)
  | rest => (whole, rest)

/-- The words that are no raw names either. -/
def neverRaw : List String :=
  ["_", "super", "self", "Self", "crate"]

/-- The raw name whose mark ends here, and the rest. -/
def rawName? (cs : List Char) : Cut :=
  match cs with
  | c :: _ =>
    let n := String.ofList (cs.takeWhile continuesName)
    if beginsName c && !neverRaw.contains n then
      some ([.one (.ident ("r#" ++ n))], cs.dropWhile continuesName)
    else none
  | [] => none

/-- The token of a word and what stands after it, which is a literal if the word is its prefix. -/
def prefixed? (word after : List Char) : Cut :=
  let name := String.ofList word
  let literal {α : Type} (read : Option (α × List Char)) : Cut :=
    asToken literalToken (word ++ after) read
  let plain : Cut := some ([.one (.ident name)], after)
  match after with
  | '"' :: inner =>
    if name = "r" then asToken textToken (word ++ after) (rawTextFrom? after)
    else if name = "br" || name = "cr" then literal (rawTextFrom? after)
    else if name = "b" || name = "c" then literal (quotedText? inner)
    else plain
  | '#' :: inner =>
    if name = "r" then
      if inner.head? = some '"' || inner.head? = some '#' then
        asToken textToken (word ++ after) (rawTextFrom? after)
      else rawName? inner
    else if name = "br" || name = "cr" then literal (rawTextFrom? after)
    else plain
  | '\'' :: inner => if name = "b" then literal (quotedChar? inner) else plain
  | _ => plain

/-- The token that begins with a name, and the rest. -/
def word? (cs : List Char) : Cut :=
  prefixed? (cs.takeWhile continuesName) (cs.dropWhile continuesName)

/-- The marks of a single character. -/
def marks : List Char := "~!@#$%^&*-=+|:;,.<>/?".toList

/-- Whether the character makes one mark together with the next one. -/
def joinsNext (c : Char) (next : Option Char) : Bool :=
  c == ':' && next == some ':' || (c == '-' || c == '=') && next == some '>'

/-- The mark that begins with the character, and the rest. -/
def punct? (c : Char) (rest : List Char) : Cut :=
  if joinsNext c rest.head? then
    some ([.one (.punct (String.ofList (c :: rest.take 1)))], rest.drop 1)
  else if marks.contains c then some ([.one (.punct (String.singleton c))], rest)
  else none

/-- The bracket that the character is, if it is one. -/
def bracket? (c : Char) : Option Flat :=
  ((Delimiter.all.find? (·.opening == c)).map .opening).or
    ((Delimiter.all.find? (·.closing == c)).map .closing)

/-- Whether a comment begins with the character. -/
def beginsComment (c : Char) (rest : List Char) : Bool :=
  c == '/' && (rest.head? == some '/' || rest.head? == some '*')

/-- The token that begins with a character other than a bracket, and the rest. -/
def leaf? (c : Char) (rest : List Char) : Cut :=
  if beginsName c then word? (c :: rest)
  else if c = '\'' then afterMark? rest
  else if c = '"' then
    asToken textToken (c :: rest) (quotedText? rest)
  else if c.isDigit then
    let (written, rest) := number (c :: rest)
    some ([.one (.literal (String.ofList written))], rest)
  else punct? c rest

/-- The tokens that begin with a character, and the rest. -/
def cut? (c : Char) (rest : List Char) : Cut :=
  if Text.isBlank c then some ([], rest)
  else if beginsComment c rest then comment? rest
  else
    match bracket? c with
    | some b => some ([b], rest)
    | none => leaf? c rest

/-- The flat tokens of a text, read in at most `fuel` steps. -/
def flatTokens? : (fuel : Nat) → List Char → Option (List Flat)
  | 0, _ => some []
  | _ + 1, [] => some []
  | fuel + 1, c :: rest => do
    let (ts, rest) ← cut? c rest
    (ts ++ ·) <$> flatTokens? fuel rest

/-! ## Trees -/

/-- The tree of flat tokens. `before` are the tokens in front in the same brackets, nearest first,
and `outer` the brackets around, innermost first, each with the tokens in front of it. -/
def nest? (before : List Token) (outer : List (Delimiter × List Token)) :
    List Flat → Option (List Token)
  | [] => if outer.isEmpty then some before.reverse else none
  | .one t :: rest => nest? (t :: before) outer rest
  | .opening d :: rest => nest? [] ((d, before) :: outer) rest
  | .closing d :: rest =>
    match outer with
    | [] => none
    | (d', front) :: outer =>
      if d = d' then nest? (.group d before.reverse :: front) outer rest else none

/-- The tokens of a text. Each step reads a character at least. -/
def tokens? (s : String) : Option (List Token) := do
  let cs := s.toList
  let flat ← flatTokens? cs.length cs
  nest? [] [] flat

end Tabula.Source
