import Mathlib.Tactic.FinCases
import Tabula.Query.Condition

/-! # The tokens of conditions

How the text of a condition falls into tokens: quoted names, words in any case, signs, and
placeholders. A token is as long as it can be, so a word ends where no letter follows, and a
placeholder where no digit does (`?1` would be one of another kind). Where a blank, a comma or a
closing parenthesis follows, or nothing, every token ends (`Tabula.Sql.Ends`) and is read by itself
(`Tabula.Sql.tokens?_name`, `Tabula.Sql.tokens?_word`, `Tabula.Sql.tokens?_sign`). Values go to the
placeholders from left to right (`Tabula.Sql.fill`).
-/

namespace Tabula.Sql

/-! ## Tokens -/

/-- The words and signs of conditions. -/
inductive Symbol where
  | whereWord
  | andWord
  | orWord
  | notWord
  | isWord
  | inWord
  | betweenWord
  | nullWord
  | equal
  | unequal
  | less
  | lessEqual
  | greater
  | greaterEqual
  | leftParen
  | rightParen
  | comma
deriving DecidableEq

namespace Symbol

def text : Symbol → String
  | whereWord => "WHERE"
  | andWord => "AND"
  | orWord => "OR"
  | notWord => "NOT"
  | isWord => "IS"
  | inWord => "IN"
  | betweenWord => "BETWEEN"
  | nullWord => "NULL"
  | equal => "="
  | unequal => "<>"
  | less => "<"
  | lessEqual => "<="
  | greater => ">"
  | greaterEqual => ">="
  | leftParen => "("
  | rightParen => ")"
  | comma => ","

/-- The symbols that are words. -/
def words : List Symbol :=
  [whereWord, andWord, orWord, notWord, isWord, inWord, betweenWord, nullWord]

/-- The symbols that compare. -/
def signs : List Symbol :=
  [equal, unequal, less, lessEqual, greater, greaterEqual]

end Symbol

/-- A token, with something of its own at each placeholder. -/
inductive Token (α : Type) where
  | name (n : String)
  | symbol (s : Symbol)
  | slot (a : α)
deriving DecidableEq

namespace Token

variable {α : Type}

/-- The token without what it has of its own. -/
def erase : Token α → Token Unit
  | name n => name n
  | symbol s => symbol s
  | slot _ => slot ()

/-- What the token has of its own. -/
def value? : Token α → Option α
  | slot a => some a
  | _ => none

end Token

/-! ## Reading tokens -/

/-- Whether the character stands between tokens. -/
def isSpace (c : Char) : Bool :=
  c = ' ' || c = '\t' || c = '\n' || c = '\x0c' || c = '\r'

/-- Whether a word goes on with the character. -/
def isWordChar (c : Char) : Bool :=
  c.isAlphanum || c = '_' || c = '$' || 128 ≤ c.toNat

/-- The symbol that the letters are, whatever their case. -/
def word? (letters : List Char) : Option Symbol :=
  Symbol.words.find? (·.text.toList == letters.map Char.toUpper)

/-- The sign that begins with the character. -/
def sign? (c : Char) (rest : List Char) : Option (Symbol × List Char) :=
  match c, rest with
  | '<', '>' :: rest => some (.unequal, rest)
  | '<', '=' :: rest => some (.lessEqual, rest)
  | '<', rest => some (.less, rest)
  | '>', '=' :: rest => some (.greaterEqual, rest)
  | '>', rest => some (.greater, rest)
  | '!', '=' :: rest => some (.unequal, rest)
  | '=', '=' :: rest => some (.equal, rest)
  | '=', rest => some (.equal, rest)
  | '(', rest => some (.leftParen, rest)
  | ')', rest => some (.rightParen, rest)
  | ',', rest => some (.comma, rest)
  | _, _ => none

/-- The token that begins with the character, and what follows it. -/
def token? (c : Char) (rest : List Char) : Option (Token Unit × List Char) :=
  if c = '"' then
    (Text.lexQuotedBody? '"' rest).map fun r => (.name (String.ofList r.1), r.2)
  else if c = '?' then
    if rest.head?.any Char.isDigit then none else some (.slot (), rest)
  else if isWordChar c then
    (word? (c :: rest.takeWhile isWordChar)).map fun s => (.symbol s, rest.dropWhile isWordChar)
  else (sign? c rest).map fun r => (.symbol r.1, r.2)

/-- What follows a name in quotes is shorter than the text. -/
theorem length_lexQuotedBody? {q : Char} {cs name later : List Char}
    (read : Text.lexQuotedBody? q cs = some (name, later)) : later.length ≤ cs.length := by
  fun_induction Text.lexQuotedBody? q cs generalizing name later with
  | case1 => cases read
  | case2 =>
      obtain ⟨-, rfl⟩ := Prod.mk.inj (Option.some.inj read)
      exact Nat.zero_le _
  | case3 => cases read
  | case4 rest ih =>
      obtain ⟨⟨inner, tail⟩, isRead, same⟩ := Option.map_eq_some_iff.mp read
      obtain ⟨-, rfl⟩ := Prod.mk.inj same
      have shorter := ih isRead
      exact Nat.le_trans shorter (Nat.le_add_right _ 2)
  | case5 d rest notDoubled =>
      obtain ⟨-, rfl⟩ := Prod.mk.inj (Option.some.inj read)
      exact Nat.le_succ _
  | case6 c d rest notQuote ih =>
      obtain ⟨⟨inner, tail⟩, isRead, same⟩ := Option.map_eq_some_iff.mp read
      obtain ⟨-, rfl⟩ := Prod.mk.inj same
      exact Nat.le_succ_of_le (ih isRead)

private theorem length_sign? {c : Char} {rest later : List Char} {s : Symbol}
    (read : sign? c rest = some (s, later)) : later.length ≤ rest.length := by
  unfold sign? at read
  split at read
  case h_12 => cases read
  all_goals
    obtain ⟨-, rfl⟩ := Prod.mk.inj (Option.some.inj read)
    simp only [List.length_cons, Nat.le_refl, Nat.le_succ]

/-- What follows a token is shorter than what begins with it. -/
theorem length_token? {c : Char} {rest later : List Char} {t : Token Unit}
    (read : token? c rest = some (t, later)) : later.length ≤ rest.length := by
  unfold token? at read
  split at read
  · obtain ⟨⟨inner, tail⟩, isRead, same⟩ := Option.map_eq_some_iff.mp read
    obtain ⟨-, rfl⟩ := Prod.mk.inj same
    exact length_lexQuotedBody? isRead
  · split at read
    · split at read
      · cases read
      · obtain ⟨-, rfl⟩ := Prod.mk.inj (Option.some.inj read)
        exact Nat.le_refl _
    · split at read
      · obtain ⟨s, -, same⟩ := Option.map_eq_some_iff.mp read
        obtain ⟨-, rfl⟩ := Prod.mk.inj same
        exact (List.dropWhile_sublist _).length_le
      · obtain ⟨⟨s, tail⟩, isRead, same⟩ := Option.map_eq_some_iff.mp read
        obtain ⟨-, rfl⟩ := Prod.mk.inj same
        exact length_sign? isRead

/-- The tokens of a text, nothing if some part of it is none. -/
def tokens? : List Char → Option (List (Token Unit))
  | [] => some []
  | c :: rest =>
    if isSpace c then tokens? rest
    else
      match _isRead : token? c rest with
      | some (t, later) => (tokens? later).map (t :: ·)
      | none => none
termination_by cs => cs.length
decreasing_by
  · exact Nat.lt_succ_self _
  · exact Nat.lt_succ_of_le (length_token? _isRead)

/-! ## Tokens one by one -/

/-- The empty text has no token. -/
theorem tokens?_nil : tokens? [] = some [] := by
  rw [tokens?]

/-- A blank is no token. -/
theorem tokens?_space (rest : List Char) : tokens? (' ' :: rest) = tokens? rest := by
  rw [tokens?, if_pos (by decide)]

private theorem tokens?_of_token? {c : Char} {rest later : List Char} {t : Token Unit}
    (notSpace : isSpace c = false) (read : token? c rest = some (t, later)) :
    tokens? (c :: rest) = (tokens? later).map (t :: ·) := by
  rw [tokens?, if_neg (Bool.eq_false_iff.mp notSpace)]
  split
  · rename_i isRead
    obtain ⟨rfl, rfl⟩ := Prod.mk.inj (Option.some.inj (read.symm.trans isRead))
    rfl
  · rename_i unread
    cases read.symm.trans unread

/-- Whether every token before the text ends there. -/
def Ends (rest : List Char) : Prop :=
  ∀ c ∈ rest.head?, c = ' ' ∨ c = ')' ∨ c = ','

/-- A token ends at the end of the text. -/
theorem Ends.nil : Ends [] := by
  intro c isHead
  cases isHead

/-- A token ends before a blank. -/
theorem Ends.space (rest : List Char) : Ends (' ' :: rest) := by
  intro c isHead
  exact Or.inl (Option.some.inj isHead).symm

/-- A token ends before a closing parenthesis. -/
theorem Ends.rightParen (rest : List Char) : Ends (')' :: rest) := by
  intro c isHead
  exact Or.inr (Or.inl (Option.some.inj isHead).symm)

/-- A token ends before a comma. -/
theorem Ends.comma (rest : List Char) : Ends (',' :: rest) := by
  intro c isHead
  exact Or.inr (Or.inr (Option.some.inj isHead).symm)

/-- A name in quotes is the first token. -/
theorem tokens?_name {rest : List Char} (ends : Ends rest) (n : String) :
    tokens? (Text.quoteChars '"' n.toList ++ rest) = (tokens? rest).map (.name n :: ·) := by
  have closed : rest.head? ≠ some '"' := by
    intro isQuote
    exact absurd (ends '"' isQuote) (by decide)
  have read : token? '"' (Text.doubleChars '"' n.toList ++ '"' :: rest) =
      some (.name n, rest) := by
    rw [token?, if_pos rfl, Text.lexQuotedBody?_doubleChars closed, Option.map_some,
      String.ofList_toList]
  rw [Text.quoteChars, List.cons_append, List.append_assoc]
  exact tokens?_of_token? (by decide) read

/-- A placeholder is the first token. -/
theorem tokens?_slot {rest : List Char} (ends : Ends rest) :
    tokens? ('?' :: rest) = (tokens? rest).map (.slot () :: ·) := by
  have noDigit : rest.head?.any Char.isDigit = false := by
    cases rest with
    | nil => rfl
    | cons c rest =>
        rcases ends c rfl with rfl | rfl | rfl <;> rfl
  apply tokens?_of_token? (by decide)
  rw [token?, if_neg (by decide), if_pos rfl, noDigit]
  rfl

/-- A word of conditions is the first token. -/
theorem tokens?_word {s : Symbol} (isWord : s ∈ Symbol.words) {rest : List Char}
    (ends : Ends rest) :
    tokens? (s.text.toList ++ rest) = (tokens? rest).map (.symbol s :: ·) := by
  -- Both words and what may follow them are few, so the classes of characters are looked up.
  have letters : ∀ s ∈ Symbol.words, s.text.toList ≠ [] ∧ word? s.text.toList = some s ∧
      (s.text.toList.all fun c => isWordChar c && !isSpace c && c != '"' && c != '?') = true := by
    decide
  obtain ⟨notEmpty, isSymbol, each⟩ := letters s isWord
  obtain ⟨c, cs, split⟩ := List.exists_cons_of_ne_nil notEmpty
  rw [split] at isSymbol each ⊢
  simp only [List.all_cons, Bool.and_eq_true, Bool.not_eq_true', bne_iff_ne, ne_eq,
    List.all_eq_true] at each
  obtain ⟨⟨⟨⟨isLetter, notSpace⟩, notQuote⟩, notSlot⟩, others⟩ := each
  have inside : ∀ d ∈ cs, isWordChar d = true := fun d member => (others d member).1.1.1
  have outside : rest.takeWhile isWordChar = [] ∧ rest.dropWhile isWordChar = rest := by
    cases rest with
    | nil => exact ⟨rfl, rfl⟩
    | cons d rest =>
        rcases ends d rfl with rfl | rfl | rfl <;> exact ⟨rfl, rfl⟩
  rw [List.cons_append]
  apply tokens?_of_token? notSpace
  rw [token?, if_neg notQuote, if_neg notSlot, if_pos isLetter,
    List.takeWhile_append_of_pos inside, List.dropWhile_append_of_pos inside, outside.1,
    outside.2, List.append_nil, isSymbol]
  rfl

/-- A sign of conditions is the first token. -/
theorem tokens?_sign {s : Symbol} (isSign : s ∈ Symbol.signs) {rest : List Char}
    (ends : Ends rest) :
    tokens? (s.text.toList ++ rest) = (tokens? rest).map (.symbol s :: ·) := by
  have read : ∃ c cs, s.text.toList = c :: cs ∧ isSpace c = false ∧
      token? c (cs ++ rest) = some (.symbol s, rest) := by
    rw [Symbol.signs] at isSign
    fin_cases isSign <;> refine ⟨_, _, rfl, by decide, ?_⟩
    -- What follows decides whether a short sign goes on, and here it never does.
    all_goals
      cases rest with
      | nil => rfl
      | cons c later => rcases ends c rfl with rfl | rfl | rfl <;> rfl
  obtain ⟨c, cs, split, notSpace, isToken⟩ := read
  rw [split, List.cons_append]
  exact tokens?_of_token? notSpace isToken

/-- An opening parenthesis is the first token. -/
theorem tokens?_leftParen (rest : List Char) :
    tokens? ('(' :: rest) = (tokens? rest).map (.symbol .leftParen :: ·) :=
  tokens?_of_token? (by decide) rfl

/-- A closing parenthesis is the first token. -/
theorem tokens?_rightParen (rest : List Char) :
    tokens? (')' :: rest) = (tokens? rest).map (.symbol .rightParen :: ·) :=
  tokens?_of_token? (by decide) rfl

/-- A comma is the first token. -/
theorem tokens?_comma (rest : List Char) :
    tokens? (',' :: rest) = (tokens? rest).map (.symbol .comma :: ·) :=
  tokens?_of_token? (by decide) rfl

/-! ## Values -/

/-- The tokens with a value at each placeholder, from left to right, nothing unless there are as many
values as placeholders. -/
def fill {α : Type} : List (Token Unit) → List α → Option (List (Token α))
  | [], [] => some []
  | [], _ :: _ => none
  | .slot _ :: _, [] => none
  | .slot _ :: ts, v :: vs => (fill ts vs).map (.slot v :: ·)
  | .name n :: ts, vs => (fill ts vs).map (.name n :: ·)
  | .symbol s :: ts, vs => (fill ts vs).map (.symbol s :: ·)

/-- Tokens get their own values back. -/
theorem fill_erase {α : Type} (ts : List (Token α)) :
    fill (ts.map Token.erase) (ts.filterMap Token.value?) = some ts := by
  induction ts with
  | nil => rfl
  | cons t ts ih =>
      cases t with
      | name n =>
          rw [List.map_cons, List.filterMap_cons_none rfl, Token.erase, fill, ih]
          rfl
      | symbol s =>
          rw [List.map_cons, List.filterMap_cons_none rfl, Token.erase, fill, ih]
          rfl
      | slot v =>
          have isOwn : (Token.slot v).value? = some v := rfl
          rw [List.map_cons, List.filterMap_cons_some isOwn, Token.erase, fill, ih]
          rfl

end Tabula.Sql
