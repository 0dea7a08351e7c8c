/-! # Quoted identifiers

A name is quoted by a quote character at either end, with every quote character inside written
twice. `lexQuoted?` reads such an identifier off the front of a text and gives back the name and
what follows; `lexQuoted?_quoteChars` says that it undoes the quoting whatever follows, as long as
the next character is not one more quote.
-/

namespace Tabula.Text

/-- The characters with every `q` written twice. -/
def doubleChars (q : Char) : List Char → List Char
  | [] => []
  | c :: rest => if c = q then q :: q :: doubleChars q rest else c :: doubleChars q rest

/-- The quoted form of a name. -/
def quoteChars (q : Char) (name : List Char) : List Char :=
  q :: (doubleChars q name ++ [q])

/-- The quoted form of a name. -/
def quoteWith (q : Char) (name : String) : String :=
  String.ofList (quoteChars q name.toList)

/-- The name up to the closing quote, and what follows it. -/
def lexQuotedBody? (q : Char) : List Char → Option (List Char × List Char)
  | [] => none
  | [c] => if c = q then some ([], []) else none
  | c :: d :: rest =>
    if c = q then
      if d = q then (lexQuotedBody? q rest).map fun r => (q :: r.1, r.2)
      else some ([], d :: rest)
    else (lexQuotedBody? q (d :: rest)).map fun r => (c :: r.1, r.2)

/-- The quoted identifier at the front of a text, and what follows it. -/
def lexQuoted? (q : Char) : List Char → Option (List Char × List Char)
  | [] => none
  | c :: rest => if c = q then lexQuotedBody? q rest else none

/-- The closing quote ends the identifier where no further quote follows it. -/
theorem lexQuotedBody?_quote {q : Char} {rest : List Char} (h : rest.head? ≠ some q) :
    lexQuotedBody? q (q :: rest) = some ([], rest) := by
  cases rest with
  | nil => simp [lexQuotedBody?]
  | cons d rest =>
    have hd : d ≠ q := by simpa using h
    simp [lexQuotedBody?, hd]

/-- A name whose quotes are doubled is read up to the quote after it. -/
theorem lexQuotedBody?_doubleChars {q : Char} {rest : List Char} (h : rest.head? ≠ some q)
    (name : List Char) :
    lexQuotedBody? q (doubleChars q name ++ q :: rest) = some (name, rest) := by
  induction name with
  | nil => exact lexQuotedBody?_quote h
  | cons c name ih =>
    by_cases hc : c = q
    · subst hc
      simp [doubleChars, lexQuotedBody?, ih]
    · have step : ∀ text : List Char, text ≠ [] →
          lexQuotedBody? q (c :: text) = (lexQuotedBody? q text).map fun r => (c :: r.1, r.2) := by
        intro text ht
        cases text with
        | nil => exact absurd rfl ht
        | cons d text => simp [lexQuotedBody?, hc]
      rw [doubleChars, if_neg hc, List.cons_append, step _ (by simp), ih]
      rfl

/-- Reading undoes quoting, whatever follows, if it does not begin with one more quote. -/
theorem lexQuoted?_quoteChars {q : Char} {rest : List Char} (h : rest.head? ≠ some q)
    (name : List Char) : lexQuoted? q (quoteChars q name ++ rest) = some (name, rest) := by
  simp [quoteChars, lexQuoted?, lexQuotedBody?_doubleChars h]

end Tabula.Text
