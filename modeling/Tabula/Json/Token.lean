import Tabula.Json.Error
import Tabula.Text.Hex

/-! # Tokens of JSON

A text is cut into tokens before anything is made of it. The last token may be a broken one, which
holds the error that its characters give rise to; what comes after it is never looked at. Texts in
quotes may not hold control characters, and the halves of a surrogate pair only together.

A number keeps as many leading digits as fit a word of sixty-four bits. If it has no fraction and no
exponent and all digits fit, it is a whole number; otherwise the kept digits are scaled by a power
of ten in double precision, and a number too large for it is malformed.
-/

namespace Tabula.Json

/-- A piece of a text. -/
inductive Token where
  | null
  | bool (b : Bool)
  | number (n : Number)
  | text (s : String)
  | openArray
  | closeArray
  | openObject
  | closeObject
  | comma
  | colon
  /-- Characters that are no token; `quoted` if they begin with a quote. -/
  | broken (quoted : Bool) (e : Error)
deriving DecidableEq

/-- Whether the character may stand between tokens. -/
def isSpace (c : Char) : Bool :=
  c = ' ' || c = '\n' || c = '\t' || c = '\r'

/-! ## Texts -/

/-- The word of four hexadecimal digits. -/
def hexWord? (a b c d : Char) : Option Nat := do
  let a ← Text.hexValue? a
  let b ← Text.hexValue? b
  let c ← Text.hexValue? c
  let d ← Text.hexValue? d
  return a * 4096 + b * 256 + c * 16 + d

/-- The error of an escape that is cut off, or else is no escape. Four digits are wanted, of one
byte each. -/
def shortEscape (rest : List Char) : Error :=
  if (String.ofList rest).utf8ByteSize < 4 then .ended else .malformed

/-- The character of a simple escape. -/
def simpleEscape? (c : Char) : Option Char :=
  match c with
  | '"' => some '"'
  | '\\' => some '\\'
  | '/' => some '/'
  | 'b' => some '\x08'
  | 'f' => some '\x0c'
  | 'n' => some '\n'
  | 'r' => some '\r'
  | 't' => some '\t'
  | _ => none

/-- The error of what follows the first half of a surrogate pair, if it is no second half. -/
def halfPair (rest : List Char) : Error :=
  match rest with
  | [] => .ended
  | '\\' :: [] => .ended
  | '\\' :: 'u' :: digits => shortEscape digits
  | _ => .malformed

/-- The characters of a text up to its closing quote, and what follows it. -/
def lexText : List Char → Except Error (List Char × List Char)
  | [] => .error .ended
  | '"' :: rest => .ok ([], rest)
  | '\\' :: [] => .error .ended
  | '\\' :: 'u' :: a :: b :: c :: d :: rest =>
    match hexWord? a b c d with
    | none => .error (shortEscape (a :: b :: c :: d :: rest))
    | some n =>
      if 0xDC00 ≤ n && n ≤ 0xDFFF then .error .malformed
      else if 0xD800 ≤ n && n ≤ 0xDBFF then
        match rest with
        | '\\' :: 'u' :: e :: f :: g :: h :: rest' =>
          match hexWord? e f g h with
          | none => .error (shortEscape (e :: f :: g :: h :: rest'))
          | some m =>
            if 0xDC00 ≤ m && m ≤ 0xDFFF then
              let c := Char.ofNat (0x10000 + (n - 0xD800) * 0x400 + (m - 0xDC00))
              (lexText rest').map fun r => (c :: r.1, r.2)
            else .error .malformed
        | _ => .error (halfPair rest)
      else (lexText rest).map fun r => (Char.ofNat n :: r.1, r.2)
  | '\\' :: 'u' :: rest => .error (shortEscape rest)
  | '\\' :: c :: rest =>
    match simpleEscape? c with
    | some e => (lexText rest).map fun r => (e :: r.1, r.2)
    | none => .error .malformed
  | c :: rest =>
    if c.toNat < 0x20 then .error .malformed
    else (lexText rest).map fun r => (c :: r.1, r.2)

/-! ## Numbers -/

/-- The value of a decimal digit. -/
def digitValue (c : Char) : Nat :=
  c.toNat - '0'.toNat

/-- Digits added to a number as long as it fits sixty-four bits: the number, how many digits were
added, and the rest. -/
def takeDigits (n : Nat) : List Char → Nat × Nat × List Char
  | [] => (n, 0, [])
  | c :: rest =>
    if c.isDigit && 10 * n + digitValue c < twoTo 64 then
      let (m, count, rest') := takeDigits (10 * n + digitValue c) rest
      (m, count + 1, rest')
    else (n, 0, c :: rest)

/-- The power of ten in double precision. -/
def powerOfTen (n : Nat) : Binary64 :=
  .ofRatio false (tenTo n) 1

/-- A number divided by a power of ten, in steps of the greatest power in double precision. -/
def divideByPower (x : Binary64) (n : Nat) : Binary64 :=
  if n ≤ 308 then x.div (powerOfTen n)
  else if x.isZero then x
  else divideByPower (x.div (powerOfTen 308)) (n - 308)
termination_by n

/-- The digits scaled by a power of ten, nothing if that is too large. -/
def scale? (digits : Nat) (exponent : Int) : Option Binary64 :=
  let x := Binary64.ofInt digits
  if exponent < 0 then some (divideByPower x exponent.natAbs)
  else if exponent ≤ 308 then
    let y := x.mul (powerOfTen exponent.toNat)
    if y.isFinite then some y else none
  else if x.isZero then some x
  else none

/-- The real number of given sign, digits and exponent. -/
def realToken (negative : Bool) (digits : Nat) (exponent : Int) : Except Error Number :=
  match scale? digits exponent with
  | some x => .ok (.real (.ofCode negative x.code))
  | none => .error .malformed

/-- The real number whose exponent begins here, and the rest. Exponents beyond the words of
thirty-two bits count as boundless. -/
def lexExponent (negative : Bool) (digits : Nat) (exponent : Int) (cs : List Char) :
    Except Error Number × List Char :=
  let (down, cs) :=
    match cs with
    | '+' :: rest => (false, rest)
    | '-' :: rest => (true, rest)
    | _ => (false, cs)
  match cs with
  | [] => (.error .ended, [])
  | c :: _ =>
    if !c.isDigit then (.error .malformed, cs)
    else
      let written := (cs.takeWhile Char.isDigit).foldl (fun n c => 10 * n + digitValue c) 0
      let rest := cs.dropWhile Char.isDigit
      if twoTo 31 ≤ written then
        if digits != 0 && !down then (.error .malformed, rest)
        else (.ok (.real (.ofCode negative 0)), rest)
      else (realToken negative digits (if down then exponent - written else exponent + written), rest)

/-- The number whose fraction or exponent may begin here, and the rest. -/
def lexTail (negative : Bool) (digits : Nat) (exponent : Int) (cs : List Char)
    (whole : Except Error Number) : Except Error Number × List Char :=
  match cs with
  | '.' :: fraction =>
    match fraction with
    | [] => (.error .ended, [])
    | c :: _ =>
      if !c.isDigit then (.error .malformed, fraction)
      else
        let (digits, count, _) := takeDigits digits fraction
        let rest := fraction.dropWhile Char.isDigit
        match rest with
        | 'e' :: r | 'E' :: r => lexExponent negative digits (exponent - count) r
        | _ => (realToken negative digits (exponent - count), rest)
  | 'e' :: r | 'E' :: r => lexExponent negative digits exponent r
  | _ => (whole, cs)

/-- The whole number of given sign and digits; a negative one that does not fit is real. -/
def wholeToken (negative : Bool) (digits : Nat) : Number :=
  if !negative then .whole digits
  else if digits = 0 || twoTo 63 < digits then .real (.ofCode true (Binary64.ofInt digits).code)
  else .whole (-digits)

/-- The number after its sign, and the rest. -/
def lexNumber (negative : Bool) (cs : List Char) : Except Error Number × List Char :=
  match cs with
  | [] => (.error .ended, [])
  | c :: after =>
    if !c.isDigit then (.error .malformed, cs)
    else if c = '0' then
      if after.head?.any Char.isDigit then (.error .malformed, after)
      else lexTail negative 0 0 after (.ok (wholeToken negative 0))
    else
      let (digits, _, more) := takeDigits 0 cs
      let extra := (more.takeWhile Char.isDigit).length
      let rest := more.dropWhile Char.isDigit
      let whole := if extra = 0 then .ok (wholeToken negative digits)
        else realToken negative digits extra
      lexTail negative digits extra rest whole

/-! ## Tokens -/

/-- The rest of a text after a word, or the error of its absence. -/
def lexWord : List Char → List Char → Except Error (List Char)
  | [], rest => .ok rest
  | _ :: _, [] => .error .ended
  | w :: word, c :: rest => if w = c then lexWord word rest else .error .malformed

/-- A token and the rest, or the error that it gives rise to. -/
def lexed (quoted : Bool) {α : Type} (token : α → Token) (r : Except Error (α × List Char)) :
    Token × List Char :=
  match r with
  | .ok (a, rest) => (token a, rest)
  | .error e => (.broken quoted e, [])

/-- A number token and the rest, or the error that it gives rise to. -/
def lexedNumber (r : Except Error Number × List Char) : Token × List Char :=
  match r with
  | (.ok n, rest) => (.number n, rest)
  | (.error e, _) => (.broken false e, [])

/-- The token that begins with a character, and the rest. -/
def lexToken (c : Char) (rest : List Char) : Token × List Char :=
  match c with
  | '[' => (.openArray, rest)
  | ']' => (.closeArray, rest)
  | '\x7b' => (.openObject, rest)
  | '\x7d' => (.closeObject, rest)
  | ',' => (.comma, rest)
  | ':' => (.colon, rest)
  | '"' => lexed true (.text ∘ String.ofList) (lexText rest)
  | 'n' => lexed false (fun _ => .null) ((lexWord ['u', 'l', 'l'] rest).map ((), ·))
  | 't' => lexed false (fun _ => .bool true) ((lexWord ['r', 'u', 'e'] rest).map ((), ·))
  | 'f' => lexed false (fun _ => .bool false) ((lexWord ['a', 'l', 's', 'e'] rest).map ((), ·))
  | '-' => lexedNumber (lexNumber true rest)
  | _ =>
    if c.isDigit then lexedNumber (lexNumber false (c :: rest)) else (.broken false .malformed, [])

/-- The tokens of a text, read in at most `fuel` steps. -/
def tokensIn : (fuel : Nat) → List Char → List Token
  | 0, _ => []
  | _ + 1, [] => []
  | fuel + 1, c :: rest =>
    if isSpace c then tokensIn fuel rest
    else
      let (token, rest) := lexToken c rest
      token :: tokensIn fuel rest

/-- The tokens of a text. Each step reads a character at least, so no text has more tokens than
characters. -/
def tokens (s : String) : List Token :=
  tokensIn s.toList.length s.toList

end Tabula.Json
