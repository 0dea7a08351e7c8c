import Tabula.Proofs.Query.Clause
import Tabula.Proofs.Query.Piece

/-! # What selections say

The text of a statement that reads rows is read as the columns to read, or that the rows are to be
counted, the table, a clause that the rows must meet, the terms of an order, and the bounds of a
window (`Tabula.Sql.Query`). A bound is a whole number and may be negative, and none of the rows is
left out at the beginning without a bound for their number. Texts of selections and counts have one
reading (`Tabula.SelectStatement.readsQuery_text_iff`, `Tabula.CountStatement.readsQuery_text_iff`),
which is what the statement is made of.
-/

namespace Tabula

namespace Sql

/-! ## Queries -/

/-- What a statement that reads rows says, with a clause of the kind. -/
structure Query (κ : Type) where
  /-- The columns to read, nothing if the rows are counted. -/
  columns : Option (List String)
  table : String
  /-- What the rows must meet. -/
  clause : κ
  /-- The order of the rows, the first term first. -/
  orders : List OrderTerm
  /-- How many rows to read at most, and how many to leave out before. -/
  bounds : Option (Int × Option Int)

/-- The names at the front, with a comma between each two. -/
def names? : List Piece → Option (List String × List Piece)
  | .token (.name n) :: .token (.symbol .comma) :: rest => (names? rest).map fun r => (n :: r.1, r.2)
  | .token (.name n) :: rest => some ([n], rest)
  | _ => none

/-- The columns at the front, nothing in their place if the rows are counted. -/
def columns? : List Piece → Option (Option (List String) × List Piece)
  | .keyword .countWord :: .token (.symbol .leftParen) :: .star ::
      .token (.symbol .rightParen) :: rest => some (none, rest)
  | ps => (names? ps).map fun r => (some r.1, r.2)

/-- The tokens at the front. -/
def tokensFirst : List Piece → List (Token Unit) × List Piece
  | .token t :: rest => (t :: (tokensFirst rest).1, (tokensFirst rest).2)
  | ps => ([], ps)

/-- The direction that the word says. -/
def Keyword.direction? : Keyword → Option Direction
  | ascWord => some .asc
  | descWord => some .desc
  | _ => none

/-- The terms of an order at the front, with a comma between each two. -/
def orderTerms? : List Piece → Option (List OrderTerm × List Piece)
  | .token (.name n) :: .keyword k :: .token (.symbol .comma) :: rest => do
    let direction ← k.direction?
    let (terms, rest) ← orderTerms? rest
    return (⟨n, direction⟩ :: terms, rest)
  | .token (.name n) :: .keyword k :: rest => do
    let direction ← k.direction?
    return ([⟨n, direction⟩], rest)
  | _ => none

/-- The order at the front, if there is one. -/
def orders? : List Piece → Option (List OrderTerm × List Piece)
  | .keyword .orderWord :: .keyword .byWord :: rest => orderTerms? rest
  | ps => some ([], ps)

/-- The whole number at the front. -/
def integer? : List Piece → Option (Int × List Piece)
  | .number n :: rest => some (n, rest)
  | .minus :: .number n :: rest => some (-n, rest)
  | _ => none

/-- The bounds of a window, and nothing after them. -/
def bounds? : List Piece → Option (Option (Int × Option Int))
  | [] => some none
  | .keyword .limitWord :: rest =>
    match integer? rest with
    | some (limit, []) => some (some (limit, none))
    | some (limit, .keyword .offsetWord :: rest) =>
      match integer? rest with
      | some (offset, []) => some (some (limit, some offset))
      | _ => none
    | _ => none
  | _ => none

/-- What the pieces say, up to the tokens of the clause. -/
def query? : List Piece → Option (Query (List (Token Unit)))
  | .keyword .selectWord :: rest =>
    match columns? rest with
    | some (columns, .keyword .fromWord :: .token (.name table) :: rest) => do
      let (tokens, rest) := tokensFirst rest
      let (orders, rest) ← orders? rest
      let bounds ← bounds? rest
      return ⟨columns, table, tokens, orders, bounds⟩
    | _ => none
  | _ => none

/-- The text is read as the query, with a value for each placeholder from left to right. -/
def ReadsQuery (text : String) (values : List Value) (q : Query (Option Expr)) : Prop :=
  ∃ ps ts, pieces? text.toList = some ps ∧
    query? ps = some ⟨q.columns, q.table, ts, q.orders, q.bounds⟩ ∧ ReadsTokens ts values q.clause

/-- A text and values have no more than one reading. -/
theorem ReadsQuery.unique {text : String} {values : List Value} {q p : Query (Option Expr)}
    (first : ReadsQuery text values q) (second : ReadsQuery text values p) : q = p := by
  obtain ⟨ps, ts, isText, isQuery, reads⟩ := first
  obtain ⟨qs, us, isText', isQuery', reads'⟩ := second
  obtain rfl := Option.some.inj (isText.symm.trans isText')
  have same := Option.some.inj (isQuery.symm.trans isQuery')
  obtain ⟨columns, table, rfl, orders, bounds⟩ := Query.mk.inj same
  have clause := reads.unique reads'
  cases q
  cases p
  rw [Query.mk.injEq]
  exact ⟨columns, table, clause, orders, bounds⟩

/-! ## Pieces of a query -/

/-- No token stands at the front. -/
def Closes (rest : List Piece) : Prop :=
  ∀ t, rest.head? ≠ some (.token t)

/-- Pieces with a comma between each two. -/
def listPieces (pss : List (List Piece)) : List Piece :=
  List.intercalate [.token (.symbol .comma)] pss

/-- The word of a direction. -/
def Keyword.ofDirection : Direction → Keyword
  | .asc => ascWord
  | .desc => descWord

/-- The column of a term and its direction. -/
def termPieces (o : OrderTerm) : List Piece :=
  [.token (.name o.column), .keyword (.ofDirection o.direction)]

/-- The words of an order and its terms, nothing without any. -/
def orderPieces : List OrderTerm → List Piece
  | [] => []
  | o :: os => .keyword .orderWord :: .keyword .byWord :: listPieces ((o :: os).map termPieces)

/-- The words and the numbers of a window. -/
def windowPieces : (limit offset : Option UInt64) → List Piece
  | some limit, some offset =>
    [.keyword .limitWord, .number limit.toNat, .keyword .offsetWord, .number offset.toNat]
  | some limit, none => [.keyword .limitWord, .number limit.toNat]
  | none, some offset =>
    [.keyword .limitWord, .minus, .number 1, .keyword .offsetWord, .number offset.toNat]
  | none, none => []

section Reading

variable {rest : List Piece}

private theorem Closes.notComma (closes : Closes rest) (later : List Piece) :
    rest = .token (.symbol .comma) :: later → False := by
  rintro rfl
  exact closes _ rfl

private theorem closes_windowPieces (limit offset : Option UInt64) :
    Closes (windowPieces limit offset) := by
  cases limit <;> cases offset <;> exact fun t => nofun

private theorem closes_orderPieces (orders : List OrderTerm) (limit offset : Option UInt64) :
    Closes (orderPieces orders ++ windowPieces limit offset) := by
  cases orders with
  | nil => exact closes_windowPieces limit offset
  | cons o os => exact fun t => nofun

/-- Names with a comma between each two are read up to something that is no comma. -/
theorem names?_listPieces (apart : ∀ later, rest = .token (.symbol .comma) :: later → False)
    (n : String) (ns : List String) :
    names? (listPieces ((n :: ns).map fun n => [.token (.name n)]) ++ rest) = some (n :: ns, rest) := by
  unfold listPieces
  induction ns generalizing n with
  | nil =>
      rw [List.map_singleton, List.intercalate_singleton, List.singleton_append, names?]
      exact apart
  | cons m ns ih =>
      have others := ih m
      rw [List.map_cons] at others
      rw [List.map_cons, List.map_cons, List.intercalate_cons_cons, List.append_assoc,
        List.append_assoc, List.singleton_append, List.singleton_append, names?, others]
      rfl

private theorem columns?_of_names? {ps : List Piece} {ns : List String}
    (read : names? ps = some (ns, rest)) : columns? ps = some (some ns, rest) := by
  unfold columns?
  split
  · cases read
  · rw [read]
    rfl

/-- The tokens at the front are read up to a piece that is none. -/
theorem tokensFirst_append (closes : Closes rest) (ts : List (Token Unit)) :
    tokensFirst (ts.map .token ++ rest) = (ts, rest) := by
  induction ts with
  | nil =>
      rw [List.map_nil, List.nil_append, tokensFirst]
      rintro t later rfl
      exact closes t rfl
  | cons t ts ih =>
      rw [List.map_cons, List.cons_append, tokensFirst, ih]

private theorem direction?_ofDirection (d : Direction) :
    (Keyword.ofDirection d).direction? = some d := by
  cases d <;> rfl

/-- The terms of an order are read back before what ends a list. -/
theorem orderTerms?_listPieces (closes : Closes rest) (o : OrderTerm) (os : List OrderTerm) :
    orderTerms? (listPieces ((o :: os).map termPieces) ++ rest) = some (o :: os, rest) := by
  unfold listPieces
  induction os generalizing o with
  | nil =>
      rw [List.map_singleton, List.intercalate_singleton, termPieces, List.cons_append,
        List.singleton_append, orderTerms?, direction?_ofDirection]
      · rfl
      · exact closes.notComma
  | cons p os ih =>
      have others := ih p
      rw [List.map_cons] at others
      rw [List.map_cons, List.map_cons, List.intercalate_cons_cons, termPieces, List.append_assoc,
        List.append_assoc, List.cons_append, List.singleton_append, List.singleton_append,
        orderTerms?, others, direction?_ofDirection]
      rfl

private theorem orders?_pieces (orders : List OrderTerm) (limit offset : Option UInt64) :
    orders? (orderPieces orders ++ windowPieces limit offset) =
      some (orders, windowPieces limit offset) := by
  cases orders with
  | nil => cases limit <;> cases offset <;> rfl
  | cons o os => exact orderTerms?_listPieces (closes_windowPieces limit offset) o os

end Reading

end Sql

open Sql

/-! ## Texts of a query -/

/-- The bounds of a window. -/
def SelectStatement.bounds : (limit offset : Option UInt64) → Option (Int × Option Int)
  | some limit, some offset => some (limit.toNat, some offset.toNat)
  | some limit, none => some (limit.toNat, none)
  | none, some offset => some (-1, some offset.toNat)
  | none, none => none

private theorem Sql.bounds?_pieces (limit offset : Option UInt64) :
    bounds? (windowPieces limit offset) = some (SelectStatement.bounds limit offset) := by
  cases limit <;> cases offset <;> rfl

private theorem Sql.query?_pieces {ps : List Piece} {columns : Option (List String)}
    (isColumns : ∀ rest, columns? (ps ++ .keyword .fromWord :: rest) =
      some (columns, .keyword .fromWord :: rest))
    (table : String) (ts : List (Token Unit)) (orders : List OrderTerm) (limit offset : Option UInt64) :
    query? (.keyword .selectWord :: (ps ++ .keyword .fromWord :: .token (.name table) ::
      (ts.map .token ++ (orderPieces orders ++ windowPieces limit offset)))) =
      some ⟨columns, table, ts, orders, SelectStatement.bounds limit offset⟩ := by
  have tokens := tokensFirst_append (closes_orderPieces orders limit offset) ts
  rw [query?, isColumns]
  dsimp only
  rw [tokens]
  dsimp only
  rw [orders?_pieces, Option.bind_eq_bind, Option.bind_some, bounds?_pieces]
  rfl

private theorem splits_number (n : UInt64) : Splits (toString n).toList [.number n.toNat] := by
  have digits : (toString n).toList = Nat.toDigits 10 n.toNat :=
    Nat.toList_repr
  rw [digits]
  exact Splits.number n.toNat

/-- A name in quotes is one piece. -/
theorem splits_quoted (n : String) : Splits (quoted n).toList [.token (.name n)] := by
  rw [quoted, Text.quoteWith, String.toList_ofList]
  exact Splits.name n

namespace Conditions

/-- A token ends before the clause of conditions. -/
theorem ends_text (cs : List Condition) : Ends (text cs).toList := by
  unfold text
  split
  · exact Ends.nil
  · rw [String.toList_append]
    exact Ends.space _

end Conditions

namespace SelectStatement

private theorem ends_orderText (orders : List OrderTerm) : Ends (orderText orders).toList := by
  unfold orderText
  split
  · exact Ends.nil
  · rw [String.toList_append]
    exact Ends.space _

private theorem ends_windowText (limit offset : Option UInt64) :
    Ends (windowText limit offset).toList := by
  unfold windowText
  split
  · rw [String.toList_append, String.toList_append, String.toList_append]
    exact Ends.space _
  · rw [String.toList_append]
    exact Ends.space _
  · rw [String.toList_append]
    exact Ends.space _
  · exact Ends.nil

private theorem splits_term (o : OrderTerm) : Splits o.text.toList (termPieces o) := by
  have word : o.direction.keyword.toList = (Keyword.ofDirection o.direction).text.toList := by
    cases o.direction <;> rfl
  rw [OrderTerm.text, String.toList_append, String.toList_append, word, List.append_assoc]
  exact (splits_quoted o.column).spaced (Splits.keyword _)

private theorem splits_orderText (orders : List OrderTerm) :
    Splits (orderText orders).toList (orderPieces orders) := by
  have shape : " ORDER BY ".toList =
      ' ' :: (Keyword.orderWord.text.toList ++ ' ' :: (Keyword.byWord.text.toList ++ [' '])) := by
    decide
  cases orders with
  | nil => exact Splits.nil
  | cons o os =>
      have terms : Splits (listed ((o :: os).map (·.text))).toList
          (listPieces ((o :: os).map termPieces)) := Splits.separated fun p _ => splits_term p
      have whole := ((Splits.keyword .orderWord).spaced ((Splits.keyword .byWord).spaced terms)).space
      change Splits (" ORDER BY " ++ listed ((o :: os).map (·.text))).toList _
      rw [String.toList_append, shape]
      simpa only [List.cons_append, List.append_assoc, List.nil_append, orderPieces] using whole

/-- The text of a window falls into its words and numbers. -/
theorem splits_windowText (limit offset : Option UInt64) :
    Splits (windowText limit offset).toList (windowPieces limit offset) := by
  have limitShape : " LIMIT ".toList = ' ' :: (Keyword.limitWord.text.toList ++ [' ']) := by decide
  have offsetShape : " OFFSET ".toList = ' ' :: (Keyword.offsetWord.text.toList ++ [' ']) := by
    decide
  have minusShape : " LIMIT -1 OFFSET ".toList = ' ' :: (Keyword.limitWord.text.toList ++
      ' ' :: (['-', '1'] ++ ' ' :: (Keyword.offsetWord.text.toList ++ [' ']))) := by
    decide
  have minusOne : Splits ['-', '1'] [.minus, .number 1] := by
    have one : Splits ['1'] [.number 1] := Splits.number 1
    exact one.cons [] (by decide) fun _ => rfl
  have limited (n : UInt64) : Splits (" LIMIT " ++ toString n).toList
      [.keyword .limitWord, .number n.toNat] := by
    rw [String.toList_append, limitShape, List.cons_append, List.append_assoc]
    exact ((Splits.keyword .limitWord).spaced (splits_number n)).space
  have left (n : UInt64) : Splits (Keyword.offsetWord.text.toList ++ ' ' :: (toString n).toList)
      [.keyword .offsetWord, .number n.toNat] := (Splits.keyword .offsetWord).spaced (splits_number n)
  cases limit with
  | none =>
      cases offset with
      | none => exact Splits.nil
      | some o =>
          have whole := ((Splits.keyword .limitWord).spaced (minusOne.spaced (left o))).space
          change Splits (" LIMIT -1 OFFSET " ++ toString o).toList _
          rw [String.toList_append, minusShape]
          simpa only [List.cons_append, List.append_assoc, List.nil_append, windowPieces] using whole
  | some l =>
      cases offset with
      | none => exact limited l
      | some o =>
          have whole := (limited l).spaced (left o)
          change Splits (" LIMIT " ++ toString l ++ " OFFSET " ++ toString o).toList _
          rw [String.toList_append, String.toList_append, offsetShape]
          simpa only [List.cons_append, List.append_assoc, List.nil_append, windowPieces] using whole

end SelectStatement

/-- The text of a statement that reads rows, up to its order. -/
theorem Sql.splits_select {output : String} {ps : List Piece} (splits : Splits output.toList ps)
    (table : String) (cs : List Condition) :
    Splits ("SELECT " ++ output ++ " FROM " ++ quoted table ++ Conditions.text cs).toList
      (.keyword .selectWord :: (ps ++ .keyword .fromWord :: .token (.name table) ::
        ((Conditions.tokens cs).map Token.erase).map .token)) := by
  have selectShape : "SELECT ".toList = Keyword.selectWord.text.toList ++ [' '] := by decide
  have fromShape : " FROM ".toList = ' ' :: (Keyword.fromWord.text.toList ++ [' ']) := by decide
  have clause := Splits.tokens (Conditions.tokens?_text cs)
  have whole := ((Splits.keyword .selectWord).spaced (splits.spaced
    ((Splits.keyword .fromWord).spaced (splits_quoted table)))).append clause
    (Conditions.ends_text cs)
  simpa [selectShape, fromShape] using whole

/-- **What a selection says.** The text of a selection is read as its columns, its table, the
conjunction of its conditions, its order, and the bounds of its window, and as nothing else. -/
theorem SelectStatement.readsQuery_text_iff {s : SelectStatement} (columns : s.columns ≠ [])
    (counted : ∀ c ∈ s.conditions, c.Counted) (q : Query (Option Expr)) :
    ReadsQuery s.statement.text s.statement.params q ↔
      q = ⟨some s.columns, s.table, (Conditions.together s.conditions).map (·.expr), s.orders,
        bounds s.limit s.offset⟩ := by
  have names : Splits (listed (s.columns.map quoted)).toList
      (listPieces (s.columns.map fun n => [.token (.name n)])) :=
    Splits.separated fun n _ => splits_quoted n
  have window := (splits_orderText s.orders).append (splits_windowText s.limit s.offset)
    (ends_windowText s.limit s.offset)
  have whole := (splits_select names s.table s.conditions).append window
    ((ends_orderText s.orders).append (ends_windowText s.limit s.offset))
  have isColumns (rest : List Piece) :
      columns? (listPieces (s.columns.map fun n => [.token (.name n)]) ++ .keyword .fromWord :: rest) =
        some (some s.columns, .keyword .fromWord :: rest) := by
    obtain ⟨n, ns, isCons⟩ := List.exists_cons_of_ne_nil columns
    have closes : Closes (.keyword .fromWord :: rest) := fun t => nofun
    rw [isCons]
    exact columns?_of_names? (names?_listPieces closes.notComma n ns)
  have isRead : ReadsQuery s.statement.text s.statement.params
      ⟨some s.columns, s.table, (Conditions.together s.conditions).map (·.expr), s.orders,
        bounds s.limit s.offset⟩ := by
    refine ⟨_, (Conditions.tokens s.conditions).map Token.erase, ?_,
      query?_pieces isColumns s.table _ s.orders s.limit s.offset, Conditions.readsTokens counted⟩
    have read := whole.whole
    simpa [statement] using read
  exact ⟨fun other => other.unique isRead, fun same => same ▸ isRead⟩

/-- **What a count says.** The text of a count is read as a count of the rows of its table that meet
the conjunction of its conditions, in no order and without a window, and as nothing else. -/
theorem CountStatement.readsQuery_text_iff {s : CountStatement}
    (counted : ∀ c ∈ s.conditions, c.Counted) (q : Query (Option Expr)) :
    ReadsQuery s.statement.text s.statement.params q ↔
      q = ⟨none, s.table, (Conditions.together s.conditions).map (·.expr), [], none⟩ := by
  have shape : "SELECT COUNT(*) FROM " = "SELECT " ++ "COUNT(*)" ++ " FROM " := by decide
  have whole := (splits_select Splits.countAll s.table s.conditions).whole
  rw [← shape] at whole
  have isRead : ReadsQuery s.statement.text s.statement.params
      ⟨none, s.table, (Conditions.together s.conditions).map (·.expr), [], none⟩ := by
    refine ⟨_, (Conditions.tokens s.conditions).map Token.erase, whole, ?_,
      Conditions.readsTokens counted⟩
    have isColumns (rest : List Piece) :
        columns? ([.keyword .countWord, .token (.symbol .leftParen), .star,
          .token (.symbol .rightParen)] ++ .keyword .fromWord :: rest) =
          some (none, .keyword .fromWord :: rest) := rfl
    have read := query?_pieces isColumns s.table ((Conditions.tokens s.conditions).map Token.erase)
      [] none none
    rwa [orderPieces, windowPieces, List.append_nil, List.append_nil] at read
  exact ⟨fun other => other.unique isRead, fun same => same ▸ isRead⟩

end Tabula
