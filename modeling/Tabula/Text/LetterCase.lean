import Tabula.Text.CaseTable

/-! # Letter case

Two foldings of letter case live side by side. Names that an engine compares are folded in ASCII
only (`asciiLower`, `sameName`). Duplicates are looked for after full Unicode lower-casing
(`lower`), where `İ` becomes two characters and a capital sigma becomes the final form at the end of
a word: after a cased letter and not before one, looking through the characters that casing ignores.
-/

namespace Tabula.Text

/-- The text with its ASCII capitals made small. -/
def asciiLower (s : String) : String :=
  s.map Char.toLower

/-- The text with its small ASCII letters made capital. -/
def asciiUpper (s : String) : String :=
  s.map Char.toUpper

/-- Whether two names are one name for the engine, which ignores the case of ASCII letters. -/
def sameName (a b : String) : Bool :=
  asciiLower a == asciiLower b

/-- Whether some stretch of the table holds the character. -/
def inRanges (ranges : Array (Nat × Nat)) (c : Char) : Bool :=
  ranges.any fun r => r.1 ≤ c.toNat && c.toNat ≤ r.2

/-- Whether casing looks through the character. -/
def isCaseIgnorable (c : Char) : Bool :=
  inRanges caseIgnorableRanges c

/-- Whether the first character that casing does not look through is cased. -/
def meetsCased (cs : List Char) : Bool :=
  match cs.dropWhile isCaseIgnorable with
  | [] => false
  | c :: _ => inRanges casedRanges c

/-- The lower-case form of a character by itself. -/
def lowerChar (c : Char) : List Char :=
  if c = 'İ' then ['i', '\u0307']
  else
    match lowerRuns.find? (·.holds c.toNat) with
    | some run => [Char.ofNat (c.toNat + run.shift).toNat]
    | none => [c]

/-- The lower-case form of `rest`, where `before` are the characters in front, nearest first. -/
def lowerChars (before : List Char) : List Char → List Char
  | [] => []
  | c :: rest =>
    let here :=
      if c = 'Σ' then
        if meetsCased before && !meetsCased rest then ['ς'] else ['σ']
      else lowerChar c
    here ++ lowerChars (c :: before) rest

/-- The lower-case form of a text. -/
def lower (s : String) : String :=
  String.ofList (lowerChars [] s.toList)

/-- Names are the same if they are so in small letters. -/
theorem sameName_iff {a b : String} : sameName a b = true ↔ asciiLower a = asciiLower b :=
  beq_iff_eq

/-- A name is the same as itself. -/
theorem sameName_refl (a : String) : sameName a a = true :=
  sameName_iff.2 rfl

/-- Two names are the same either way. -/
theorem sameName_comm (a b : String) : sameName a b = sameName b a := by
  rw [Bool.eq_iff_iff, sameName_iff, sameName_iff, eq_comm]

end Tabula.Text
