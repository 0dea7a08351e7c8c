import Mathlib.Data.List.Chain
import Tabula.Schema.Digest

/-! # The lexemes of schema statements

The statements of a schema are written in fixed words, quoted names and the expressions of default
values, with nothing between them. No word starts another one and none starts with a quote, so a
text can be read in one way only (`Tabula.Ddl.spelling_injective`), names being any texts at all. An
expression has no end of its own: the expressions in the text must be known.
-/

namespace Tabula.Ddl

/-! ## Words -/

/-- The fixed words of the statements, with the blanks and the punctuation around them. -/
inductive Word where
  | createTable
  | createIndex (unique : Bool)
  | openList
  | firstLine
  | nextLine
  | closeTable
  | closeIndex
  | endStatement
  | storage (type : StorageType)
  | primaryKey
  | autoincrement
  | notNull
  | unique
  | on
  | conflict (policy : ConflictPolicy)
  | delete (action : DeleteAction)
  | collate (collation : Collation)
  | references
deriving DecidableEq

namespace Word

def text : Word → String
  | createTable => "CREATE TABLE IF NOT EXISTS "
  | createIndex false => "CREATE INDEX IF NOT EXISTS "
  | createIndex true => "CREATE UNIQUE INDEX IF NOT EXISTS "
  | openList => " ("
  | firstLine => "\n    "
  | nextLine => ",\n    "
  | closeTable => "\n)"
  | closeIndex => ")"
  | endStatement => ";\n"
  | storage type => " " ++ type.name
  | primaryKey => " PRIMARY KEY"
  | autoincrement => " AUTOINCREMENT"
  | notNull => " NOT NULL"
  | unique => " UNIQUE"
  | on => " ON "
  | conflict policy => "CONFLICT " ++ policy.name
  | delete action => "DELETE " ++ action.name
  | collate collation => " COLLATE " ++ collation.name
  | references => " REFERENCES "

def all : List Word :=
  [createTable, createIndex false, createIndex true, openList, firstLine, nextLine, closeTable,
    closeIndex, endStatement, primaryKey, autoincrement, notNull, unique, on, references] ++
  StorageType.all.map storage ++ ConflictPolicy.all.map conflict ++ DeleteAction.all.map delete ++
  Collation.all.map collate

/-- The list of all words has every word. -/
theorem mem_all (w : Word) : w ∈ all := by
  cases w with
  | createIndex unique => cases unique <;> decide
  | storage type => cases type <;> decide
  | conflict policy => cases policy <;> decide
  | delete action => cases action <;> decide
  | collate collation => cases collation <;> decide
  | _ => decide

/-- No word starts another one. -/
theorem prefixFree :
    ∀ v ∈ all, ∀ w ∈ all, v.text.toList <+: w.text.toList → v = w := by
  decide +kernel

/-- A word can be told from a name and from a default value by how it starts. -/
theorem apart :
    ∀ w ∈ all, w.text.toList ≠ [] ∧ w.text.toList.head? ≠ some '"' ∧
      ¬ w.text.toList <+: " DEFAULT ".toList ∧ ¬ " DEFAULT ".toList <+: w.text.toList := by
  decide +kernel

private theorem default_start :
    " DEFAULT ".toList ≠ [] ∧ " DEFAULT ".toList.head? ≠ some '"' := by
  decide +kernel

end Word

/-! ## Lexemes -/

/-- The smallest parts of the statements. -/
inductive Lexeme where
  | word (w : Word)
  | name (n : String)
  | default (expr : String)
deriving DecidableEq

namespace Lexeme

/-- The characters of a lexeme. -/
def chars : Lexeme → List Char
  | word w => w.text.toList
  | name n => Text.quoteChars '"' n.toList
  | default expr => " DEFAULT ".toList ++ expr.toList

/-- A word is written as its text. -/
@[simp] theorem chars_word (w : Word) : (word w).chars = w.text.toList :=
  rfl

/-- A name is written in quotes. -/
@[simp] theorem chars_name (n : String) : (name n).chars = Text.quoteChars '"' n.toList :=
  rfl

/-- A default is written after its keyword. -/
@[simp] theorem chars_default (expr : String) :
    (default expr).chars = " DEFAULT ".toList ++ expr.toList :=
  rfl

/-- The name in a quoted identifier. -/
def name? : Lexeme → Option String
  | name n => some n
  | _ => none

/-- The expression of a default value. -/
def default? : Lexeme → Option String
  | default expr => some expr
  | _ => none

/-- A quoted identifier is not followed by another one. -/
def Follows (x y : Lexeme) : Prop :=
  x.name? = none ∨ y.name? = none

private theorem chars_ne_nil (x : Lexeme) : x.chars ≠ [] := by
  cases x with
  | word w => exact (Word.apart w w.mem_all).1
  | name n => exact List.cons_ne_nil _ _
  | default expr => exact List.append_ne_nil_of_left_ne_nil Word.default_start.1 _

private theorem head?_chars {x : Lexeme} (notName : x.name? = none) (rest : List Char) :
    (x.chars ++ rest).head? ≠ some '"' := by
  cases x with
  | word w =>
      rw [List.head?_append_of_ne_nil _ (chars_ne_nil _)]
      exact (Word.apart w w.mem_all).2.1
  | name n => cases notName
  | default expr =>
      rw [chars_default, List.append_assoc, List.head?_append_of_ne_nil _ Word.default_start.1]
      exact Word.default_start.2

/-- Whether a lexeme stands before a line of a list. -/
def startsLine : Lexeme → Bool
  | word .firstLine => true
  | word .nextLine => true
  | _ => false

/-- Whether a statement starts with the lexeme. -/
def startsStatement : Lexeme → Bool
  | word .createTable => true
  | word (.createIndex _) => true
  | _ => false

/-- Whether the statements of a table start with the lexeme. -/
def startsTable : Lexeme → Bool
  | word .createTable => true
  | _ => false

/-- What starts no statement starts no table. -/
theorem startsTable_of_startsStatement {x : Lexeme} (inside : x.startsStatement = false) :
    x.startsTable = false := by
  cases x with
  | name n => rfl
  | default expr => rfl
  | word w => cases w <;> first | rfl | cases inside

end Lexeme

/-- The text of a list of lexemes. -/
def spelling (xs : List Lexeme) : List Char :=
  xs.flatMap Lexeme.chars

/-- The expressions of the default values among lexemes. -/
def defaults (xs : List Lexeme) : List String :=
  xs.filterMap Lexeme.default?

/-- Without lexemes nothing is written. -/
@[simp] theorem spelling_nil : spelling [] = [] :=
  rfl

/-- Lexemes are written one after the other. -/
@[simp] theorem spelling_cons (x : Lexeme) (xs : List Lexeme) :
    spelling (x :: xs) = x.chars ++ spelling xs :=
  rfl

/-- Two lists of lexemes are written one after the other. -/
@[simp] theorem spelling_append (xs ys : List Lexeme) :
    spelling (xs ++ ys) = spelling xs ++ spelling ys :=
  List.flatMap_append

/-- Lists of lexemes are written one after the other. -/
@[simp] theorem spelling_flatten (xss : List (List Lexeme)) :
    spelling xss.flatten = xss.flatMap spelling := by
  induction xss with
  | nil => rfl
  | cons xs xss ih => rw [List.flatten_cons, spelling_append, ih, List.flatMap_cons]

/-- Two lists of lexemes have the defaults of both. -/
@[simp] theorem defaults_append (xs ys : List Lexeme) :
    defaults (xs ++ ys) = defaults xs ++ defaults ys :=
  List.filterMap_append

/-- Lists of lexemes have the defaults of all of them. -/
@[simp] theorem defaults_flatten (xss : List (List Lexeme)) :
    defaults xss.flatten = xss.flatMap defaults := by
  induction xss with
  | nil => rfl
  | cons xs xss ih => rw [List.flatten_cons, defaults_append, ih, List.flatMap_cons]

/-- No two quoted identifiers follow each other. -/
def Spaced (xs : List Lexeme) : Prop :=
  xs.IsChain Lexeme.Follows

private theorem head?_spelling {n : String} {xs : List Lexeme} (spaced : Spaced (.name n :: xs)) :
    (spelling xs).head? ≠ some '"' := by
  cases xs with
  | nil => simp [spelling]
  | cons x xs =>
      rcases (List.isChain_cons_cons.mp spaced).1 with notName | notName
      · cases notName
      · exact Lexeme.head?_chars notName _

/-- No text starts both with a word and with a default value. -/
theorem word_ne_default (w : Word) (expr : String) (rest others : List Char) :
    (Lexeme.word w).chars ++ rest ≠ (Lexeme.default expr).chars ++ others := by
  intro same
  have ofWord : w.text.toList <+: (Lexeme.default expr).chars ++ others :=
    same ▸ List.prefix_append _ rest
  have ofDefault : " DEFAULT ".toList <+: (Lexeme.default expr).chars ++ others :=
    (List.prefix_append _ expr.toList).trans (List.prefix_append _ others)
  obtain ⟨-, -, notBefore, notAfter⟩ := Word.apart w w.mem_all
  rcases List.prefix_or_prefix_of_prefix ofWord ofDefault with starts | starts
  · exact notBefore starts
  · exact notAfter starts

/-- Texts of the same default values that are alike start with the same lexeme. -/
theorem head_unique {x y : Lexeme} {xs ys : List Lexeme} (spacedX : Spaced (x :: xs))
    (spacedY : Spaced (y :: ys)) (sameDefaults : defaults (x :: xs) = defaults (y :: ys))
    (same : x.chars ++ spelling xs = y.chars ++ spelling ys) : x = y := by
  have sameHead := congrArg List.head? same
  cases x with
  | name n =>
      cases y with
      | name m =>
          have reading := congrArg (Text.lexQuoted? '"') same
          simp only [Lexeme.chars_name, Text.lexQuoted?_quoteChars (head?_spelling spacedX),
            Text.lexQuoted?_quoteChars (head?_spelling spacedY), Option.some.injEq,
            Prod.mk.injEq] at reading
          rw [String.toList_injective reading.1]
      | word w => exact absurd sameHead.symm (Lexeme.head?_chars rfl _)
      | default expr => exact absurd sameHead.symm (Lexeme.head?_chars rfl _)
  | word v =>
      cases y with
      | name m => exact absurd sameHead (Lexeme.head?_chars rfl _)
      | word w =>
          have oneStarts := List.prefix_or_prefix_of_prefix (same ▸ List.prefix_append _ _)
            (List.prefix_append w.text.toList (spelling ys))
          rcases oneStarts with starts | starts
          · rw [Word.prefixFree v v.mem_all w w.mem_all starts]
          · rw [Word.prefixFree w w.mem_all v v.mem_all starts]
      | default expr => exact absurd same (word_ne_default v expr _ _)
  | default expr =>
      cases y with
      | name m => exact absurd sameHead (Lexeme.head?_chars rfl _)
      | word w => exact absurd same.symm (word_ne_default w expr _ _)
      | default other => rw [(List.cons.inj sameDefaults).1]

/-- **Unique reading.** Two lists of lexemes without adjacent names, which have the same default
values and are spelled alike, are the same list. -/
theorem spelling_injective {xs ys : List Lexeme} (spacedX : Spaced xs) (spacedY : Spaced ys)
    (sameDefaults : defaults xs = defaults ys) (same : spelling xs = spelling ys) : xs = ys := by
  induction xs generalizing ys with
  | nil =>
      cases ys with
      | nil => rfl
      | cons y ys => exact absurd (List.append_eq_nil_iff.mp same.symm).1 y.chars_ne_nil
  | cons x xs ih =>
      cases ys with
      | nil => exact absurd (List.append_eq_nil_iff.mp same).1 x.chars_ne_nil
      | cons y ys =>
          obtain rfl := head_unique spacedX spacedY sameDefaults same
          have sameRest : spelling xs = spelling ys := List.append_cancel_left same
          have sameDefaultsRest : defaults xs = defaults ys := by
            cases x with
            | default expr => exact (List.cons.inj sameDefaults).2
            | name n => exact sameDefaults
            | word w => exact sameDefaults
          exact congrArg _ (ih spacedX.tail spacedY.tail sameDefaultsRest sameRest)

/-! ## Phrases -/

/-- Lexemes that can stand after any others: no two names follow each other, and the first lexeme is
not a name. -/
structure Phrase (xs : List Lexeme) : Prop where
  spaced : Spaced xs
  leading : ∀ x ∈ xs.head?, x.name? = none

/-- A phrase may stand after lexemes without two names in a row. -/
theorem Spaced.append {xs ys : List Lexeme} (first : Spaced xs) (second : Phrase ys) :
    Spaced (xs ++ ys) :=
  List.IsChain.append first second.spaced fun _ _ y leads => Or.inr (second.leading y leads)

/-- No lexemes may stand after any others. -/
theorem Phrase.nil : Phrase [] :=
  ⟨List.isChain_nil, by simp⟩

/-- A phrase may begin with a word. -/
theorem Phrase.word {w : Word} {xs : List Lexeme} (rest : Spaced xs) : Phrase (.word w :: xs) :=
  ⟨List.isChain_cons.mpr ⟨fun _ _ => Or.inl rfl, rest⟩, by simp [Lexeme.name?]⟩

/-- A name may stand before a phrase. -/
theorem Spaced.name {n : String} {xs : List Lexeme} (rest : Phrase xs) : Spaced (.name n :: xs) :=
  List.isChain_cons.mpr ⟨fun x leads => Or.inr (rest.leading x leads), rest.spaced⟩

/-- A default may stand after any others. -/
theorem Phrase.default (expr : String) : Phrase [.default expr] :=
  ⟨List.isChain_singleton _, by simp [Lexeme.name?]⟩

/-- A phrase may stand after another one. -/
theorem Phrase.append {xs ys : List Lexeme} (first : Phrase xs) (second : Phrase ys) :
    Phrase (xs ++ ys) := by
  refine ⟨first.spaced.append second, fun x leads => ?_⟩
  cases xs with
  | nil => exact second.leading x leads
  | cons y xs => exact first.leading x leads

/-- Any number of phrases may stand after each other. -/
theorem Phrase.flatten {xss : List (List Lexeme)} (each : ∀ xs ∈ xss, Phrase xs) :
    Phrase xss.flatten := by
  induction xss with
  | nil => exact Phrase.nil
  | cons xs xss ih =>
      rw [List.flatten_cons]
      exact (each xs List.mem_cons_self).append
        (ih fun other member => each other (List.mem_cons_of_mem _ member))

/-! ## Blocks -/

section Blocks

variable {α : Type} {leads : α → Bool}

/-- A list whose first member leads and whose other members do not. -/
def Block (leads : α → Bool) (xs : List α) : Prop :=
  ∃ x rest, xs = x :: rest ∧ leads x = true ∧ ∀ y ∈ rest, leads y = false

private theorem takeWhile_flatten {rest : List α} {xss : List (List α)}
    (inside : ∀ y ∈ rest, leads y = false) (blocks : ∀ xs ∈ xss, Block leads xs) :
    (rest ++ xss.flatten).takeWhile (!leads ·) = rest := by
  rw [List.takeWhile_append_of_pos (by simpa using inside)]
  cases xss with
  | nil => simp
  | cons xs xss =>
      obtain ⟨x, more, rfl, leading, -⟩ := blocks xs List.mem_cons_self
      simp [leading]

/-- A list can be cut into blocks in one way only. -/
theorem flatten_blocks_injective {xss yss : List (List α)} (blocksX : ∀ xs ∈ xss, Block leads xs)
    (blocksY : ∀ ys ∈ yss, Block leads ys) (same : xss.flatten = yss.flatten) : xss = yss := by
  induction xss generalizing yss with
  | nil =>
      cases yss with
      | nil => rfl
      | cons ys yss =>
          obtain ⟨y, rest, rfl, -, -⟩ := blocksY ys List.mem_cons_self
          cases same
  | cons xs xss ih =>
      obtain ⟨x, rest, rfl, -, inside⟩ := blocksX xs List.mem_cons_self
      cases yss with
      | nil => cases same
      | cons ys yss =>
          obtain ⟨y, others, rfl, -, insideOthers⟩ := blocksY ys List.mem_cons_self
          have laterX : ∀ xs ∈ xss, Block leads xs :=
            fun xs member => blocksX xs (List.mem_cons_of_mem _ member)
          have laterY : ∀ ys ∈ yss, Block leads ys :=
            fun ys member => blocksY ys (List.mem_cons_of_mem _ member)
          simp only [List.flatten_cons, List.cons_append, List.cons.injEq] at same
          obtain ⟨rfl, sameRest⟩ := same
          have sameBlock : rest = others := by
            rw [← takeWhile_flatten inside laterX, sameRest, takeWhile_flatten insideOthers laterY]
          subst sameBlock
          rw [ih laterX laterY (List.append_cancel_left sameRest)]

end Blocks

end Tabula.Ddl
