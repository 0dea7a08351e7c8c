import Mathlib.Data.List.TakeWhile
import Tabula.Proofs.Query.Token
import Tabula.Query.Statement

/-! # The pieces of statements

How the text of a statement falls into pieces: the tokens of its conditions and values, the words
around these, whole numbers, and two more signs. Where a token ends, it is the same token
whatever follows (`Tabula.Sql.token?_append`), so a text that falls into tokens falls into the same
pieces inside of a statement (`Tabula.Sql.Splits.tokens`).
-/

namespace Tabula.Sql

/-! ## Pieces -/

/-- The words around the conditions. -/
inductive Keyword where
  | selectWord
  | countWord
  | fromWord
  | orderWord
  | byWord
  | ascWord
  | descWord
  | limitWord
  | offsetWord
  | insertWord
  | intoWord
  | defaultWord
  | valuesWord
  | updateWord
  | setWord
  | deleteWord
  | rollbackWord
  | abortWord
  | failWord
  | ignoreWord
  | replaceWord
deriving DecidableEq

namespace Keyword

def text : Keyword → String
  | selectWord => "SELECT"
  | countWord => "COUNT"
  | fromWord => "FROM"
  | orderWord => "ORDER"
  | byWord => "BY"
  | ascWord => "ASC"
  | descWord => "DESC"
  | limitWord => "LIMIT"
  | offsetWord => "OFFSET"
  | insertWord => "INSERT"
  | intoWord => "INTO"
  | defaultWord => "DEFAULT"
  | valuesWord => "VALUES"
  | updateWord => "UPDATE"
  | setWord => "SET"
  | deleteWord => "DELETE"
  | rollbackWord => "ROLLBACK"
  | abortWord => "ABORT"
  | failWord => "FAIL"
  | ignoreWord => "IGNORE"
  | replaceWord => "REPLACE"

def all : List Keyword :=
  [selectWord, countWord, fromWord, orderWord, byWord, ascWord, descWord, limitWord, offsetWord,
    insertWord, intoWord, defaultWord, valuesWord, updateWord, setWord, deleteWord, rollbackWord,
    abortWord, failWord, ignoreWord, replaceWord]

end Keyword

/-- A piece of a statement. -/
inductive Piece where
  | token (t : Token Unit)
  | keyword (k : Keyword)
  | number (n : Nat)
  | minus
  | star
deriving DecidableEq

/-- The word that the letters are, whatever their case. -/
def keyword? (letters : List Char) : Option Keyword :=
  Keyword.all.find? (·.text.toList == letters.map Char.toUpper)

/-- The number that digits stand for. -/
def number? (digits : List Char) : Option Nat :=
  if digits.all Char.isDigit then some (Nat.ofDigitChars 10 digits 0) else none

/-- The piece that begins with the character and is no token of conditions, and what follows it. Two
minus signs begin a comment. -/
def other? (c : Char) (rest : List Char) : Option (Piece × List Char) :=
  if c = '*' then some (.star, rest)
  else if c = '-' then if rest.head? = some '-' then none else some (.minus, rest)
  else if isWordChar c then
    let word := c :: rest.takeWhile isWordChar
    ((number? word).map Piece.number <|> (keyword? word).map Piece.keyword).map
      (·, rest.dropWhile isWordChar)
  else none

/-- The piece that begins with the character, and what follows it. -/
def piece? (c : Char) (rest : List Char) : Option (Piece × List Char) :=
  match token? c rest with
  | some (t, later) => some (.token t, later)
  | none => other? c rest

/-- What is no token takes characters off the text as well. -/
theorem length_other? {c : Char} {rest later : List Char} {p : Piece}
    (read : other? c rest = some (p, later)) : later.length ≤ rest.length := by
  unfold other? at read
  split at read
  · obtain ⟨-, rfl⟩ := Prod.mk.inj (Option.some.inj read)
    exact Nat.le_refl _
  · split at read
    · split at read
      · cases read
      · obtain ⟨-, rfl⟩ := Prod.mk.inj (Option.some.inj read)
        exact Nat.le_refl _
    · split at read
      · obtain ⟨q, -, same⟩ := Option.map_eq_some_iff.mp read
        obtain ⟨-, rfl⟩ := Prod.mk.inj same
        exact (List.dropWhile_sublist _).length_le
      · cases read

/-- What follows a piece is shorter than what begins with it. -/
theorem length_piece? {c : Char} {rest later : List Char} {p : Piece}
    (read : piece? c rest = some (p, later)) : later.length ≤ rest.length := by
  unfold piece? at read
  split at read
  · rename_i isToken
    obtain ⟨-, rfl⟩ := Prod.mk.inj (Option.some.inj read)
    exact length_token? isToken
  · exact length_other? read

/-- The pieces of a text, nothing if some part of it is none. -/
def pieces? : List Char → Option (List Piece)
  | [] => some []
  | c :: rest =>
    if isSpace c then pieces? rest
    else
      match _isRead : piece? c rest with
      | some (p, later) => (pieces? later).map (p :: ·)
      | none => none
termination_by cs => cs.length
decreasing_by
  · exact Nat.lt_succ_self _
  · exact Nat.lt_succ_of_le (length_piece? _isRead)

private theorem pieces?_nil : pieces? [] = some [] := by
  rw [pieces?]

private theorem pieces?_of_isSpace {c : Char} (isSpace : isSpace c = true) (rest : List Char) :
    pieces? (c :: rest) = pieces? rest := by
  rw [pieces?, if_pos isSpace]

private theorem pieces?_of_piece? {c : Char} {rest later : List Char} {p : Piece}
    (notSpace : isSpace c = false) (read : piece? c rest = some (p, later)) :
    pieces? (c :: rest) = (pieces? later).map (p :: ·) := by
  rw [pieces?, if_neg (Bool.eq_false_iff.mp notSpace)]
  split
  · rename_i isRead
    obtain ⟨rfl, rfl⟩ := Prod.mk.inj (Option.some.inj (read.symm.trans isRead))
    rfl
  · rename_i unread
    cases read.symm.trans unread

/-! ## Tokens whatever follows -/

section Append

variable {c : Char} {rest later more : List Char}

/-- A name ends at its quote, whatever follows but another quote. -/
theorem lexQuotedBody?_append {q : Char} {name : List Char}
    (read : Text.lexQuotedBody? q rest = some (name, later)) (closed : more.head? ≠ some q) :
    Text.lexQuotedBody? q (rest ++ more) = some (name, later ++ more) := by
  fun_induction Text.lexQuotedBody? q rest generalizing name later with
  | case1 => cases read
  | case2 =>
      obtain ⟨rfl, rfl⟩ := Prod.mk.inj (Option.some.inj read)
      exact Text.lexQuotedBody?_quote closed
  | case3 => cases read
  | case4 rest ih =>
      obtain ⟨⟨inner, tail⟩, isRead, same⟩ := Option.map_eq_some_iff.mp read
      obtain ⟨rfl, rfl⟩ := Prod.mk.inj same
      simp only [List.cons_append, Text.lexQuotedBody?, if_true, ih isRead, Option.map_some]
  | case5 d rest notDoubled =>
      obtain ⟨rfl, rfl⟩ := Prod.mk.inj (Option.some.inj read)
      simp only [List.cons_append, Text.lexQuotedBody?, if_true, notDoubled, if_false]
  | case6 c d rest notQuote ih =>
      obtain ⟨⟨inner, tail⟩, isRead, same⟩ := Option.map_eq_some_iff.mp read
      obtain ⟨rfl, rfl⟩ := Prod.mk.inj same
      have inside := ih isRead
      rw [List.cons_append] at inside
      simp only [List.cons_append, Text.lexQuotedBody?, notQuote, if_false, inside, Option.map_some]

/-- A word is the same one whatever follows, as long as a token ends there. -/
theorem Ends.span_append (ends : Ends more) (rest : List Char) :
    (rest ++ more).takeWhile isWordChar = rest.takeWhile isWordChar ∧
      (rest ++ more).dropWhile isWordChar = rest.dropWhile isWordChar ++ more := by
  have outside : more.takeWhile isWordChar = [] ∧ more.dropWhile isWordChar = more := by
    cases more with
    | nil => exact ⟨rfl, rfl⟩
    | cons d more => rcases ends d rfl with rfl | rfl | rfl <;> exact ⟨rfl, rfl⟩
  induction rest with
  | nil => exact outside
  | cons d rest ih =>
      cases inside : isWordChar d with
      | true =>
          rw [List.cons_append, List.takeWhile_cons_of_pos inside, ih.1,
            List.takeWhile_cons_of_pos inside, List.dropWhile_cons_of_pos inside, ih.2,
            List.dropWhile_cons_of_pos inside]
          exact ⟨rfl, rfl⟩
      | false =>
          have outside : ¬isWordChar d = true := Bool.eq_false_iff.mp inside
          rw [List.cons_append, List.takeWhile_cons_of_neg outside,
            List.takeWhile_cons_of_neg outside, List.dropWhile_cons_of_neg outside,
            List.dropWhile_cons_of_neg outside]
          exact ⟨rfl, rfl⟩

/-- A sign is the same one whatever follows, as long as a token ends there. -/
theorem sign?_append {s : Symbol} (read : sign? c rest = some (s, later)) (ends : Ends more) :
    sign? c (rest ++ more) = some (s, later ++ more) := by
  -- a sign goes on with `>` or `=`, and nothing that ends a token begins with these
  have apart : ∀ d, d = '>' ∨ d = '=' → (∀ inside, rest = d :: inside → False) →
      ∀ others, rest ++ more = d :: others → False := by
    intro d isSign notInside others split
    cases rest with
    | nil =>
        obtain rfl : more = d :: others := split
        rcases isSign with rfl | rfl
        · exact absurd (ends '>' rfl) (by decide)
        · exact absurd (ends '=' rfl) (by decide)
    | cons e rest =>
        obtain ⟨rfl, -⟩ := List.cons.inj split
        exact notInside rest rfl
  unfold sign? at read
  split at read
  case h_3 notMore notEqual =>
    obtain ⟨rfl, rfl⟩ := Prod.mk.inj (Option.some.inj read)
    rw [sign?]
    · exact apart '>' (Or.inl rfl) notMore
    · exact apart '=' (Or.inr rfl) notEqual
  case h_5 notEqual =>
    obtain ⟨rfl, rfl⟩ := Prod.mk.inj (Option.some.inj read)
    rw [sign?]
    exact apart '=' (Or.inr rfl) notEqual
  case h_8 notEqual =>
    obtain ⟨rfl, rfl⟩ := Prod.mk.inj (Option.some.inj read)
    rw [sign?]
    exact apart '=' (Or.inr rfl) notEqual
  case h_12 => cases read
  all_goals
    obtain ⟨rfl, rfl⟩ := Prod.mk.inj (Option.some.inj read)
    rfl

/-- A token is the same one whatever follows, as long as it ends there. -/
theorem token?_append {t : Token Unit} (read : token? c rest = some (t, later))
    (ends : Ends more) : token? c (rest ++ more) = some (t, later ++ more) := by
  unfold token? at read ⊢
  by_cases isQuote : c = '"'
  · rw [if_pos isQuote] at read ⊢
    obtain ⟨⟨name, tail⟩, isRead, same⟩ := Option.map_eq_some_iff.mp read
    obtain ⟨rfl, rfl⟩ := Prod.mk.inj same
    have closed : more.head? ≠ some '"' := fun isQuote => absurd (ends '"' isQuote) (by decide)
    rw [lexQuotedBody?_append isRead closed, Option.map_some]
  · rw [if_neg isQuote] at read ⊢
    by_cases isSlot : c = '?'
    · rw [if_pos isSlot] at read ⊢
      split at read
      · cases read
      · rename_i noDigit
        obtain ⟨rfl, rfl⟩ := Prod.mk.inj (Option.some.inj read)
        refine if_neg ?_
        cases rest with
        | nil =>
            cases more with
            | nil => exact Bool.false_ne_true
            | cons d more => rcases ends d rfl with rfl | rfl | rfl <;> exact Bool.false_ne_true
        | cons d rest => exact noDigit
    · rw [if_neg isSlot] at read ⊢
      by_cases isWord : isWordChar c = true
      · rw [if_pos isWord] at read ⊢
        obtain ⟨s, isSymbol, same⟩ := Option.map_eq_some_iff.mp read
        obtain ⟨rfl, rfl⟩ := Prod.mk.inj same
        rw [(ends.span_append rest).1, (ends.span_append rest).2, isSymbol, Option.map_some]
      · rw [if_neg isWord] at read ⊢
        obtain ⟨⟨s, tail⟩, isSign, same⟩ := Option.map_eq_some_iff.mp read
        obtain ⟨rfl, rfl⟩ := Prod.mk.inj same
        rw [sign?_append isSign ends, Option.map_some]

/-- Where a token ends before a text, it does so before a longer one. -/
theorem Ends.append (ends : Ends later) (endsMore : Ends more) : Ends (later ++ more) := by
  cases later with
  | nil => exact endsMore
  | cons d later => exact ends

end Append

/-! ## Texts that fall into pieces -/

/-- The text falls into the pieces, wherever a token ends after it. -/
def Splits (text : List Char) (ps : List Piece) : Prop :=
  ∀ rest, Ends rest → pieces? (text ++ rest) = (pieces? rest).map (ps ++ ·)

namespace Splits

variable {text later : List Char} {ps qs : List Piece}

/-- The empty text has no piece. -/
theorem nil : Splits [] [] := by
  intro rest ends
  cases read : pieces? rest <;> simp [read]

/-- Two texts fall into pieces one after the other, if a token ends between them. -/
theorem append (first : Splits text ps) (second : Splits later qs) (ends : Ends later) :
    Splits (text ++ later) (ps ++ qs) := by
  intro rest endsRest
  rw [List.append_assoc, first _ (ends.append endsRest), second rest endsRest, Option.map_map]
  simp only [Function.comp_def, List.append_assoc]

/-- A text that falls into pieces wherever it stands does so alone. -/
theorem whole (splits : Splits text ps) : pieces? text = some ps := by
  have read := splits [] Ends.nil
  rwa [pieces?_nil, List.append_nil, Option.map_some, List.append_nil] at read

/-- A blank before a text is no piece. -/
theorem space (splits : Splits text ps) : Splits (' ' :: text) ps := by
  intro rest ends
  rw [List.cons_append, pieces?_of_isSpace (by decide), splits rest ends]

/-- A blank parts two texts. -/
theorem spaced (first : Splits text ps) (second : Splits later qs) :
    Splits (text ++ ' ' :: later) (ps ++ qs) :=
  first.append second.space (Ends.space later)

/-- A text that is all one piece, wherever a token ends. -/
theorem single {c : Char} {p : Piece} (notSpace : isSpace c = false)
    (read : ∀ rest, Ends rest → piece? c (text ++ rest) = some (p, rest)) :
    Splits (c :: text) [p] := by
  intro rest ends
  exact pieces?_of_piece? notSpace (read rest ends)

/-- What falls into tokens falls into the same pieces. -/
theorem tokens {ts : List (Token Unit)} (read : tokens? text = some ts) :
    Splits text (ts.map .token) := by
  intro rest ends
  fun_induction tokens? text generalizing ts with
  | case1 =>
      obtain rfl := Option.some.inj read
      exact nil rest ends
  | case2 c others isSpace ih =>
      rw [List.cons_append, pieces?_of_isSpace isSpace]
      exact ih read
  | case3 c others notSpace t later isToken ih =>
      obtain ⟨us, isRead, rfl⟩ := Option.map_eq_some_iff.mp read
      have isPiece : piece? c (others ++ rest) = some (.token t, later ++ rest) := by
        rw [piece?, token?_append isToken ends]
      rw [List.cons_append, pieces?_of_piece? (Bool.eq_false_iff.mpr notSpace) isPiece, ih isRead,
        Option.map_map]
      rfl
  | case4 => cases read

/-- A name in quotes. -/
theorem name (n : String) : Splits (Text.quoteChars '"' n.toList) [.token (.name n)] := by
  have read := tokens?_name Ends.nil n
  rw [List.append_nil, tokens?_nil] at read
  exact tokens read

/-- A text that begins with a piece, whatever follows the rest of it. -/
theorem cons {c : Char} (others : List Char) {p : Piece} (notSpace : isSpace c = false)
    (read : ∀ rest, piece? c (others ++ (text ++ rest)) = some (p, text ++ rest))
    (splits : Splits text ps) : Splits (c :: (others ++ text)) (p :: ps) := by
  intro rest ends
  rw [List.cons_append, List.append_assoc, pieces?_of_piece? notSpace (read rest),
    splits rest ends, Option.map_map]
  rfl

/-- A comma before a text is one piece more. -/
theorem comma (splits : Splits text ps) : Splits (',' :: text) (.token (.symbol .comma) :: ps) :=
  cons [] (by decide) (fun _ => rfl) splits

/-- An opening parenthesis before a text is one piece more. -/
theorem leftParen (splits : Splits text ps) :
    Splits ('(' :: text) (.token (.symbol .leftParen) :: ps) :=
  cons [] (by decide) (fun _ => rfl) splits

/-- A closing parenthesis before a text is one piece more. -/
theorem rightParen (splits : Splits text ps) :
    Splits (')' :: text) (.token (.symbol .rightParen) :: ps) :=
  cons [] (by decide) (fun _ => rfl) splits

/-- A word that is none of conditions. -/
theorem word {c : Char} {cs : List Char} {p : Piece} (letters : ∀ d ∈ c :: cs, isWordChar d = true)
    (noToken : word? (c :: cs) = none)
    (isPiece : ((number? (c :: cs)).map Piece.number <|>
      (keyword? (c :: cs)).map Piece.keyword) = some p) : Splits (c :: cs) [p] := by
  have isLetter := letters c List.mem_cons_self
  have apart {d : Char} (other : isWordChar d = false) : c ≠ d := by
    rintro rfl
    cases isLetter.symm.trans other
  have notSpace : isSpace c = false := by
    simp only [isSpace, Bool.or_eq_false_iff, decide_eq_false_iff_not]
    exact ⟨⟨⟨⟨apart (by decide), apart (by decide)⟩, apart (by decide)⟩, apart (by decide)⟩,
      apart (by decide)⟩
  refine single notSpace fun rest ends => ?_
  have inside : cs.takeWhile isWordChar = cs :=
    List.takeWhile_eq_self_iff.mpr fun d member => letters d (List.mem_cons_of_mem c member)
  have after : cs.dropWhile isWordChar = [] :=
    List.dropWhile_eq_nil_iff.mpr fun d member => letters d (List.mem_cons_of_mem c member)
  obtain ⟨taken, left⟩ := ends.span_append cs
  rw [inside] at taken
  rw [after, List.nil_append] at left
  have unread : token? c (cs ++ rest) = none := by
    rw [token?, if_neg (apart (by decide)), if_neg (apart (by decide)), if_pos isLetter, taken,
      noToken]
    rfl
  rw [piece?, unread]
  change other? c (cs ++ rest) = _
  rw [other?, if_neg (apart (by decide)), if_neg (apart (by decide)), if_pos isLetter, taken, left]
  dsimp only
  rw [isPiece]
  rfl

/-- A word is one piece. -/
theorem keyword (k : Keyword) : Splits k.text.toList [.keyword k] := by
  -- The words are few, so their characters are looked up.
  have known : ∀ k ∈ Keyword.all, k.text.toList ≠ [] ∧ word? k.text.toList = none ∧
      number? k.text.toList = none ∧ keyword? k.text.toList = some k ∧
      k.text.toList.all isWordChar = true := by
    decide +kernel
  have member : k ∈ Keyword.all := by cases k <;> decide
  obtain ⟨notEmpty, noToken, noNumber, isKeyword, allLetters⟩ := known k member
  have letters := List.all_eq_true.mp allLetters
  obtain ⟨c, cs, split⟩ := List.exists_cons_of_ne_nil notEmpty
  rw [split] at noToken noNumber isKeyword letters ⊢
  refine word letters noToken ?_
  rw [noNumber, isKeyword]
  rfl

/-- No word begins with a digit. -/
theorem word?_of_isDigit {c : Char} (isDigit : c.isDigit = true) (cs : List Char) :
    word? (c :: cs) = none := by
  have letters : Symbol.words.all (·.text.toList.head?.all (!·.isDigit)) = true := by decide +kernel
  have small : c.toUpper = c := by
    refine dif_neg fun isLower => ?_
    have atMost := of_decide_eq_true (Bool.and_eq_true_iff.mp isDigit).2
    exact absurd (UInt32.le_trans isLower.1 atMost) (by decide)
  rw [word?, List.find?_eq_none]
  intro s member same
  have first := List.all_eq_true.mp letters s member
  rw [eq_of_beq same, List.map_cons, small, List.head?_cons, Option.all_some, isDigit] at first
  cases first

/-- The digits of a number. -/
theorem number (n : Nat) : Splits (Nat.toDigits 10 n) [.number n] := by
  have digits : ∀ d ∈ Nat.toDigits 10 n, d.isDigit = true := fun d member =>
    Nat.isDigit_of_mem_toDigits (by decide) (by decide) member
  have isNumber : number? (Nat.toDigits 10 n) = some n := by
    rw [number?, if_pos (List.all_eq_true.mpr digits), Nat.ofDigitChars_ten_toDigits]
  obtain ⟨c, cs, split⟩ := List.exists_cons_of_ne_nil (Nat.toDigits_ne_nil (n := n) (b := 10))
  rw [split] at digits isNumber ⊢
  refine word (fun d member => ?_) (word?_of_isDigit (digits c List.mem_cons_self) cs) ?_
  · have alphanumeric : d.isAlphanum = true := Bool.or_eq_true_iff.mpr (Or.inr (digits d member))
    rw [isWordChar, alphanumeric, Bool.true_or, Bool.true_or, Bool.true_or]
  · rw [isNumber]
    rfl

/-- Texts with a comma between each two. -/
theorem separated {α : Type} {text : α → String} {pieces : α → List Piece} {items : List α}
    (each : ∀ a ∈ items, Splits (text a).toList (pieces a)) :
    Splits (listed (items.map text)).toList
      (List.intercalate [.token (.symbol .comma)] (items.map pieces)) := by
  have commaShape : ", ".toList = [',', ' '] := by decide
  unfold listed
  induction items with
  | nil => exact nil
  | cons a items ih =>
      have first := each a List.mem_cons_self
      cases items with
      | nil =>
          rw [List.map_singleton, List.map_singleton, List.intercalate_singleton,
            String.intercalate_singleton]
          exact first
      | cons b items =>
          have others := ih fun c member => each c (List.mem_cons_of_mem a member)
          rw [List.map_cons, List.map_cons, List.map_cons, List.map_cons,
            String.intercalate_cons_cons, List.intercalate_cons_cons, String.toList_append,
            String.toList_append, commaShape, List.append_assoc, List.append_assoc]
          exact first.append others.space.comma (Ends.comma _)

/-- The count of all rows. -/
theorem countAll : Splits "COUNT(*)".toList
    [.keyword .countWord, .token (.symbol .leftParen), .star, .token (.symbol .rightParen)] := by
  have shape : "COUNT(*)".toList = 'C' :: (['O', 'U', 'N', 'T'] ++ ['(', '*', ')']) := by decide
  have every : Splits ['*', ')'] [.star, .token (.symbol .rightParen)] :=
    cons [] (by decide) (fun _ => rfl) nil.rightParen
  rw [shape]
  exact cons ['O', 'U', 'N', 'T'] (by decide) (fun _ => rfl) every.leftParen

end Splits

end Tabula.Sql
