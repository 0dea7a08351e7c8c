import Tabula.Proofs.Query.Reader
import Tabula.Query.Condition

/-! # Conditions in the grammar

What the text of a condition says. It falls into the tokens of the condition
(`Tabula.Condition.lexes`), which have its operands at the placeholders
(`Tabula.Condition.values_tokens`) and make its expression (`Tabula.Condition.reads`). A condition
can be told from its expression (`Tabula.Sql.Expr.condition?_expr`), so nothing of it is lost.
-/

namespace Tabula

open Sql

/-! ## Texts that fall into tokens -/

namespace Sql

/-- The text falls into the tokens, wherever a token ends after it. -/
def Lexes (text : List Char) (ts : List (Token Unit)) : Prop :=
  ∀ rest, Ends rest → tokens? (text ++ rest) = (tokens? rest).map (ts ++ ·)

namespace Lexes

variable {text later : List Char} {ts us : List (Token Unit)}

/-- The empty text has no token. -/
theorem nil : Lexes [] [] := by
  intro rest ends
  cases read : tokens? rest <;> simp [read]

/-- Two texts fall into tokens one after the other, if the first one ends where the second begins.
-/
theorem append (first : Lexes text ts) (second : Lexes later us) (notEmpty : later ≠ [])
    (ends : Ends later) : Lexes (text ++ later) (ts ++ us) := by
  intro rest endsRest
  obtain ⟨c, others, rfl⟩ := List.exists_cons_of_ne_nil notEmpty
  have inside : Ends (c :: others ++ rest) := ends
  rw [List.append_assoc, first _ inside, second rest endsRest, Option.map_map]
  simp only [Function.comp_def, List.append_assoc]

/-- A text that falls into tokens wherever it stands does so alone. -/
theorem whole (lexes : Lexes text ts) : tokens? text = some ts := by
  have read := lexes [] Ends.nil
  rwa [tokens?_nil, List.append_nil, Option.map_some, List.append_nil] at read

/-- A blank before a text is no token. -/
theorem space (lexes : Lexes text ts) : Lexes (' ' :: text) ts := by
  intro rest ends
  rw [List.cons_append, tokens?_space, lexes rest ends]

/-- A comma before a text is one token more. -/
theorem comma (lexes : Lexes text ts) : Lexes (',' :: text) (.symbol .comma :: ts) := by
  intro rest ends
  rw [List.cons_append, tokens?_comma, lexes rest ends, Option.map_map]
  rfl

private theorem parens (lexes : Lexes text ts) :
    Lexes ('(' :: (text ++ [')'])) (.symbol .leftParen :: (ts ++ [.symbol .rightParen])) := by
  intro rest ends
  rw [List.cons_append, List.append_assoc, tokens?_leftParen, List.singleton_append,
    lexes _ (Ends.rightParen rest), tokens?_rightParen, Option.map_map, Option.map_map]
  simp only [Function.comp_def, List.cons_append, List.append_assoc, List.nil_append]

/-- A name in quotes. -/
theorem name (n : String) : Lexes (Text.quoteChars '"' n.toList) [.name n] := by
  intro rest ends
  exact tokens?_name ends n

/-- A placeholder. -/
theorem slot : Lexes ['?'] [.slot ()] := by
  intro rest ends
  exact tokens?_slot ends

/-- A word of conditions. -/
theorem word {s : Symbol} (isWord : s ∈ Symbol.words) : Lexes s.text.toList [.symbol s] := by
  intro rest ends
  exact tokens?_word isWord ends

/-- A sign of conditions. -/
theorem sign {s : Symbol} (isSign : s ∈ Symbol.signs) : Lexes s.text.toList [.symbol s] := by
  intro rest ends
  exact tokens?_sign isSign ends

/-- A blank parts two texts. -/
theorem spaced (first : Lexes text ts) (second : Lexes later us) :
    Lexes (text ++ ' ' :: later) (ts ++ us) :=
  first.append second.space nofun (Ends.space later)

/-- A word between two texts. -/
theorem joined {s : Symbol} (isWord : s ∈ Symbol.words) (first : Lexes text ts)
    (second : Lexes later us) :
    Lexes (text ++ ' ' :: (s.text.toList ++ ' ' :: later)) (ts ++ .symbol s :: us) :=
  first.spaced ((word isWord).spaced second)

/-- Texts with a separator between each two. -/
theorem separated {α : Type} {separator : String} {s : Symbol} {text : α → String}
    {tokens : α → List (Token Unit)}
    (joins : ∀ {first later ts us}, Lexes first ts → Lexes later us →
      Lexes (first ++ (separator.toList ++ later)) (ts ++ .symbol s :: us))
    {items : List α} (each : ∀ a ∈ items, Lexes (text a).toList (tokens a)) :
    Lexes (separator.intercalate (items.map text)).toList
      (Sql.separated s (items.map tokens)) := by
  induction items with
  | nil => exact nil
  | cons a items ih =>
      have first := each a List.mem_cons_self
      cases items with
      | nil =>
          rw [List.map_singleton, List.map_singleton, separated_singleton,
            String.intercalate_singleton]
          exact first
      | cons b items =>
          have others := ih fun c member => each c (List.mem_cons_of_mem a member)
          rw [List.map_cons, List.map_cons, List.map_cons, List.map_cons,
            String.intercalate_cons_cons, separated_cons_cons, String.toList_append,
            String.toList_append, List.append_assoc]
          exact joins first others

end Lexes

end Sql

/-! ## Tokens and expressions -/

namespace Comparison

/-- The tokens that follow the column. An operand that is not there is NULL. -/
def tokens (values : List Value) : Comparison → List (Token Value)
  | eq => [.symbol .equal, .slot (values.getD 0 .null)]
  | notEq => [.symbol .unequal, .slot (values.getD 0 .null)]
  | isNull => [.symbol .isWord, .symbol .nullWord]
  | isNotNull => [.symbol .isWord, .symbol .notWord, .symbol .nullWord]
  | inList =>
    .symbol .inWord :: .symbol .leftParen ::
      (separated .comma (values.map fun v => [.slot v]) ++ [.symbol .rightParen])
  | notInList =>
    .symbol .notWord :: .symbol .inWord :: .symbol .leftParen ::
      (separated .comma (values.map fun v => [.slot v]) ++ [.symbol .rightParen])
  | lt => [.symbol .less, .slot (values.getD 0 .null)]
  | le => [.symbol .lessEqual, .slot (values.getD 0 .null)]
  | gt => [.symbol .greater, .slot (values.getD 0 .null)]
  | ge => [.symbol .greaterEqual, .slot (values.getD 0 .null)]
  | between =>
    [.symbol .betweenWord, .slot (values.getD 0 .null), .symbol .andWord,
      .slot (values.getD 1 .null)]

/-- The comparison of an expression with values. -/
def expr (e : Expr) (values : List Value) : Comparison → Expr
  | eq => .binary .equal e (.value (values.getD 0 .null))
  | notEq => .binary .unequal e (.value (values.getD 0 .null))
  | isNull => .binary .is e .null
  | isNotNull => .binary .isNot e .null
  | inList => .member false e (values.map .value)
  | notInList => .member true e (values.map .value)
  | lt => .binary .less e (.value (values.getD 0 .null))
  | le => .binary .lessEqual e (.value (values.getD 0 .null))
  | gt => .binary .greater e (.value (values.getD 0 .null))
  | ge => .binary .greaterEqual e (.value (values.getD 0 .null))
  | between => .between false e (.value (values.getD 0 .null)) (.value (values.getD 1 .null))

/-- A comparison with one placeholder. -/
theorem lexes_compared {s : Symbol} {text : List Char} (isSign : s ∈ Symbol.signs)
    (shape : text = ' ' :: (s.text.toList ++ [' ', '?'])) : Lexes text [.symbol s, .slot ()] := by
  rw [shape]
  exact ((Lexes.sign isSign).spaced Lexes.slot).space

/-- A list of placeholders in parentheses. -/
theorem lexes_placeholders (values : List Value) :
    Lexes (placeholders values.length).toList
      (List.map Token.erase
        (.symbol .leftParen ::
          (separated .comma (values.map fun v => [.slot v]) ++ [.symbol .rightParen]))) := by
  have commaShape : ", ".toList = [',', ' '] := by decide
  have inside : Lexes (", ".intercalate (values.map fun _ => "?")).toList
      (separated .comma (values.map fun _ => [.slot ()])) := by
    refine Lexes.separated ?_ fun v member => Lexes.slot
    intro first later ts us firstLexes laterLexes
    rw [commaShape]
    exact firstLexes.append laterLexes.space.comma nofun (Ends.comma _)
  have sameTokens : (separated .comma (values.map fun v => [Token.slot v])).map Token.erase =
      separated .comma (values.map fun _ => [Token.slot ()]) := by
    rw [map_erase_separated, List.map_map]
    rfl
  rw [placeholders, Value.placeholder, ← List.map_const', String.toList_append,
    String.toList_append, List.map_cons, List.map_append, sameTokens]
  exact inside.parens

/-- The text of a comparison falls into its tokens. -/
theorem lexes (op : Comparison) (values : List Value) :
    Lexes (op.text values.length).toList ((op.tokens values).map Token.erase) := by
  have isNullShape : " IS NULL".toList =
      ' ' :: (Symbol.isWord.text.toList ++ ' ' :: Symbol.nullWord.text.toList) := by decide
  have isNotNullShape : " IS NOT NULL".toList =
      ' ' :: (Symbol.isWord.text.toList ++
        ' ' :: (Symbol.notWord.text.toList ++ ' ' :: Symbol.nullWord.text.toList)) := by decide
  have betweenShape : " BETWEEN ? AND ?".toList =
      ' ' :: (Symbol.betweenWord.text.toList ++
        ' ' :: (['?'] ++ ' ' :: (Symbol.andWord.text.toList ++ ' ' :: ['?']))) := by decide
  have inShape : " IN ".toList = ' ' :: (Symbol.inWord.text.toList ++ [' ']) := by decide
  have notInShape : " NOT IN ".toList =
      ' ' :: (Symbol.notWord.text.toList ++ ' ' :: (Symbol.inWord.text.toList ++ [' '])) := by
    decide
  have isNullLexes := Lexes.word (s := .nullWord) (by decide)
  have inLexes : Lexes (Symbol.inWord.text.toList ++ ' ' :: (placeholders values.length).toList) _ :=
    (Lexes.word (by decide)).spaced (lexes_placeholders values)
  cases op with
  | eq => rw [text]; exact lexes_compared (by decide) (by decide)
  | notEq => rw [text]; exact lexes_compared (by decide) (by decide)
  | lt => rw [text]; exact lexes_compared (by decide) (by decide)
  | le => rw [text]; exact lexes_compared (by decide) (by decide)
  | gt => rw [text]; exact lexes_compared (by decide) (by decide)
  | ge => rw [text]; exact lexes_compared (by decide) (by decide)
  | isNull =>
      rw [text, isNullShape]
      exact ((Lexes.word (by decide)).spaced isNullLexes).space
  | isNotNull =>
      rw [text, isNotNullShape]
      exact ((Lexes.word (by decide)).joined (by decide) isNullLexes).space
  | inList =>
      rw [text, String.toList_append, inShape, List.cons_append, List.append_assoc,
        List.singleton_append]
      exact inLexes.space
  | notInList =>
      rw [text, String.toList_append, notInShape, List.cons_append, List.append_assoc,
        List.cons_append, List.append_assoc, List.singleton_append]
      exact ((Lexes.word (s := .notWord) (by decide)).spaced inLexes).space
  | between =>
      rw [text, betweenShape]
      exact ((Lexes.word (by decide)).spaced (Lexes.slot.joined (by decide) Lexes.slot)).space

/-- The values of the tokens are the operands, if there are as many as the comparison takes. -/
theorem values_tokens {op : Comparison} {values : List Value} (takes : op.Takes values.length) :
    (op.tokens values).filterMap Token.value? = values := by
  have listed : (separated .comma (values.map fun v => [Token.slot v]) ++
      [Token.symbol .rightParen]).filterMap Token.value? = values := by
    rw [List.filterMap_append, values_separated, List.flatMap_map]
    change List.flatMap (fun v => [v]) values ++ [] = values
    rw [List.append_nil, List.flatMap_singleton']
  cases op with
  | eq | notEq | lt | le | gt | ge =>
      obtain ⟨v, rfl⟩ := List.length_eq_one_iff.mp (takes 1 rfl)
      rfl
  | isNull | isNotNull =>
      obtain rfl := List.length_eq_zero_iff.mp (takes 0 rfl)
      rfl
  | inList | notInList => exact listed
  | between =>
      obtain ⟨v, w, rfl⟩ := List.length_eq_two.mp (takes 2 rfl)
      rfl

/-- A column, an operator and a token make a comparison. -/
theorem reads_operator (n : String) (op : Operator) {ts : List (Token Value)} {e : Expr}
    (tight : Level.equality.rank ≤ op.level.rank) (right : Reads .atom ts e) :
    Reads .equality ([.name n] ++ ((Connective.binary op).tokens ++ ts))
      (.binary op (.column n) e) := by
  have left : Reads op.level [.name n] (.column n) := (Reads.column n).loosen op.level.rank_le_atom
  exact (Reads.binary op left (right.loosen op.level.next.rank_le_atom)).loosen tight

/-- A column and a list of values make a comparison. -/
theorem reads_member (n : String) (negated : Bool) (values : List Value) :
    Reads .equality
      ([.name n] ++ ((Connective.member negated).tokens ++
        (separated .comma (values.map fun v => [.slot v]) ++ [.symbol .rightParen])))
      (.member negated (.column n) (values.map .value)) := by
  have first : Reads .equality [.name n] (.column n) := (Reads.column n).loosen (by decide)
  have each : ∀ item ∈ values.map fun v => ([Token.slot v], Expr.value v),
      Reads .disjunction item.1 item.2 := by
    intro item member
    obtain ⟨v, -, rfl⟩ := List.mem_map.mp member
    exact (Reads.value v).loosen (by decide)
  have whole := Reads.member negated first each
  rwa [List.map_map, List.map_map] at whole

/-- The tokens of a comparison are read as it, at the level of equality. -/
theorem reads (n : String) (op : Comparison) (values : List Value) :
    Reads .equality (.name n :: op.tokens values) (op.expr (.column n) values) := by
  cases op with
  | eq => exact reads_operator n .equal (by decide) (.value _)
  | notEq => exact reads_operator n .unequal (by decide) (.value _)
  | isNull => exact reads_operator n .is (by decide) .null
  | isNotNull => exact reads_operator n .isNot (by decide) .null
  | inList => exact reads_member n false values
  | notInList => exact reads_member n true values
  | lt => exact reads_operator n .less (by decide) (.value _)
  | le => exact reads_operator n .lessEqual (by decide) (.value _)
  | gt => exact reads_operator n .greater (by decide) (.value _)
  | ge => exact reads_operator n .greaterEqual (by decide) (.value _)
  | between =>
      have low : Reads .negation [.slot (values.getD 0 .null)] _ := (Reads.value _).loosen (by decide)
      exact Reads.between false ((Reads.column n).loosen (by decide)) low (.tighter (.value _))

/-- A blank stands before the comparison. -/
theorem text_space (op : Comparison) (count : Nat) :
    ∃ later, (op.text count).toList = ' ' :: later := by
  cases op with
  | inList | notInList =>
      rw [text, String.toList_append]
      exact ⟨_, rfl⟩
  | _ =>
      rw [text]
      exact ⟨_, rfl⟩

end Comparison

namespace Condition

/-- The tokens of a condition, with the operands in their places. -/
def tokens : Condition → List (Token Value)
  | compare column op values => .name column :: op.tokens values
  | both left right =>
    .symbol .leftParen :: (left.tokens ++ .symbol .andWord :: right.tokens ++ [.symbol .rightParen])
  | either left right =>
    .symbol .leftParen :: (left.tokens ++ .symbol .orWord :: right.tokens ++ [.symbol .rightParen])

/-- The expression of the condition. -/
def expr : Condition → Expr
  | compare column op values => op.expr (.column column) values
  | both left right => .binary .and left.expr right.expr
  | either left right => .binary .or left.expr right.expr

/-- The text of a condition falls into its tokens. -/
theorem lexes (c : Condition) : Lexes c.text.toList (c.tokens.map Token.erase) := by
  have andShape : " AND ".toList = ' ' :: (Symbol.andWord.text.toList ++ [' ']) := by decide
  have orShape : " OR ".toList = ' ' :: (Symbol.orWord.text.toList ++ [' ']) := by decide
  induction c with
  | compare column op values =>
      have compared := op.lexes values
      obtain ⟨later, isSpaced⟩ := op.text_space values.length
      rw [isSpaced] at compared
      rw [text, quoted, Text.quoteWith, String.toList_append, String.toList_ofList, isSpaced]
      exact (Lexes.name column).append compared nofun (Ends.space later)
  | both left right ihLeft ihRight =>
      have inside := (ihLeft.joined (s := .andWord) (by decide) ihRight).parens
      simpa [text, tokens, andShape, Token.erase] using inside
  | either left right ihLeft ihRight =>
      have inside := (ihLeft.joined (s := .orWord) (by decide) ihRight).parens
      simpa [text, tokens, orShape, Token.erase] using inside

/-- The values of the tokens are the operands. -/
theorem values_tokens {c : Condition} (counted : c.Counted) :
    c.tokens.filterMap Token.value? = c.operands := by
  induction c with
  | compare column op values =>
      rw [tokens, List.filterMap_cons_none rfl, Comparison.values_tokens counted, operands]
      split
      · rename_i isTest
        exact List.length_eq_zero_iff.mp (counted 0 isTest)
      · rfl
  | both left right ihLeft ihRight | either left right ihLeft ihRight =>
      rw [tokens, List.filterMap_cons_none rfl, List.filterMap_append, List.filterMap_append,
        List.filterMap_cons_none rfl, ihLeft counted.1, ihRight counted.2, operands]
      exact List.append_nil _

/-- The tokens of a condition make its expression, whatever conditions stand around it. -/
theorem reads (c : Condition) : Reads .negation c.tokens c.expr := by
  induction c with
  | compare column op values => exact (op.reads column values).loosen (by decide)
  | both left right ihLeft ihRight =>
      have inside := Reads.binary .and (.tighter ihLeft) ihRight
      exact (Reads.group (inside.loosen (by decide))).loosen (by decide)
  | either left right ihLeft ihRight =>
      have inside := Reads.binary .or (ihLeft.loosen (by decide)) (.tighter ihRight)
      exact (Reads.group inside).loosen (by decide)

end Condition

/-! ## Back to the condition -/

namespace Sql

/-- The comparison with one operand that is written so. -/
def Operator.comparison? : Operator → Option Comparison
  | equal => some .eq
  | unequal => some .notEq
  | less => some .lt
  | lessEqual => some .le
  | greater => some .gt
  | greaterEqual => some .ge
  | _ => none

namespace Expr

/-- The value, if the expression is one. -/
def value? : Expr → Option Value
  | value v => some v
  | _ => none

/-- The condition of the expression, nothing if it is none. -/
def condition? : Expr → Option Condition
  | binary .and l r => do return .both (← l.condition?) (← r.condition?)
  | binary .or l r => do return .either (← l.condition?) (← r.condition?)
  | binary .is (column n) null => some (.compare n .isNull [])
  | binary .isNot (column n) null => some (.compare n .isNotNull [])
  | binary op (column n) (value v) => do return .compare n (← op.comparison?) [v]
  | member negated (column n) items => do
    return .compare n (if negated then .notInList else .inList) (← items.mapM value?)
  | between false (column n) (value low) (value high) => some (.compare n .between [low, high])
  | _ => none

private theorem mapM_value? (values : List Value) :
    (values.map value).mapM value? = some values := by
  induction values with
  | nil => rfl
  | cons v values ih =>
      rw [List.map_cons, List.mapM_cons, ih]
      rfl

/-- A condition can be told from its expression. -/
theorem condition?_expr {c : Condition} (counted : c.Counted) : c.expr.condition? = some c := by
  induction c with
  | compare column op values =>
      have takes : op.Takes values.length := counted
      cases op with
      | eq | notEq | lt | le | gt | ge =>
          obtain ⟨v, rfl⟩ := List.length_eq_one_iff.mp (takes 1 rfl)
          rfl
      | isNull | isNotNull =>
          obtain rfl := List.length_eq_zero_iff.mp (takes 0 rfl)
          rfl
      | inList | notInList =>
          rw [Condition.expr, Comparison.expr, condition?, mapM_value?]
          rfl
      | between =>
          obtain ⟨v, w, rfl⟩ := List.length_eq_two.mp (takes 2 rfl)
          rfl
  | both left right ihLeft ihRight | either left right ihLeft ihRight =>
      rw [Condition.expr, condition?, ihLeft counted.1, ihRight counted.2]
      rfl

end Expr

end Sql

end Tabula
