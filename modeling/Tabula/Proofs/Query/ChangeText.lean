import Tabula.Proofs.Query.SelectionText

/-! # What changes say

The text of a statement that changes rows is read as a statement of its kind: the rows to insert, with
the columns that they have values for, or the assignments to make in the rows that meet a clause, or
just such a clause (`Tabula.Sql.Change`). Before the table stands what to do with a row that violates
a constraint. Texts of insertions, updates and deletions have one reading
(`Tabula.InsertStatement.readsChange_text_iff`, `Tabula.UpdateStatement.readsChange_text_iff`,
`Tabula.DeleteStatement.readsChange_text_iff`), which is what the statement is made of.
-/

namespace Tabula

namespace Sql

/-! ## Changes -/

/-- What a statement that changes rows says. -/
inductive Change where
  /-- Rows are inserted. -/
  | insert (s : InsertStatement)
  /-- Values are assigned in the rows that meet a clause. -/
  | update (policy : ConflictPolicy) (table : String) (assignments : List (String × Value))
    (clause : Option Expr)
  /-- The rows that meet a clause are deleted. -/
  | delete (table : String) (clause : Option Expr)

/-- What a statement says before its first placeholder. -/
inductive Opening where
  | insert (policy : ConflictPolicy) (table : String) (columns : List String)
  | update (policy : ConflictPolicy) (table : String)
  | delete (table : String)

/-- The policy that the word says. -/
def Keyword.policy? : Keyword → Option ConflictPolicy
  | rollbackWord => some .rollback
  | abortWord => some .abort
  | failWord => some .fail
  | ignoreWord => some .ignore
  | replaceWord => some .replace
  | _ => none

/-- The policy at the front, if there is one. -/
def policy? : List Piece → Option (ConflictPolicy × List Piece)
  | .token (.symbol .orWord) :: .keyword k :: rest => k.policy?.map (·, rest)
  | ps => some (.unset, ps)

/-- The tokens, if there is nothing else. -/
def tokensOnly? (ps : List Piece) : Option (List (Token Unit)) :=
  match tokensFirst ps with
  | (ts, []) => some ts
  | _ => none

/-- The columns that an insertion has values for, and the tokens of the values. -/
def given? : List Piece → Option (List String × List (Token Unit))
  | [.keyword .defaultWord, .keyword .valuesWord] => some ([], [])
  | .token (.symbol .leftParen) :: rest =>
    match names? rest with
    | some (columns, .token (.symbol .rightParen) :: .keyword .valuesWord :: rest) =>
      (tokensOnly? rest).map (columns, ·)
    | _ => none
  | _ => none

/-- What the pieces say before the first placeholder, and the tokens from there on. -/
def opening? : List Piece → Option (Opening × List (Token Unit))
  | .keyword .insertWord :: rest =>
    match policy? rest with
    | some (policy, .keyword .intoWord :: .token (.name table) :: rest) =>
      (given? rest).map fun r => (.insert policy table r.1, r.2)
    | _ => none
  | .keyword .updateWord :: rest =>
    match policy? rest with
    | some (policy, .token (.name table) :: .keyword .setWord :: rest) =>
      (tokensOnly? rest).map (.update policy table, ·)
    | _ => none
  | .keyword .deleteWord :: .keyword .fromWord :: .token (.name table) :: rest =>
    (tokensOnly? rest).map (.delete table, ·)
  | _ => none

/-- The rows of values in parentheses, the first of which has begun with some values. -/
def rowsFrom? : Row → List (Token Value) → Option (List Row)
  | row, .slot v :: .symbol .comma :: rest => rowsFrom? (row ++ [v]) rest
  | row, [.slot v, .symbol .rightParen] => some [row ++ [v]]
  | row, .slot v :: .symbol .rightParen :: .symbol .comma :: .symbol .leftParen :: rest =>
    (rowsFrom? [] rest).map ((row ++ [v]) :: ·)
  | _, _ => none

/-- The rows of values in parentheses, and nothing after them. -/
def rows? : List (Token Value) → Option (List Row)
  | .symbol .leftParen :: rest => rowsFrom? [] rest
  | _ => none

/-- The assignments at the front, with a comma between each two. -/
def assignments? : List (Token Value) → Option (List (String × Value) × List (Token Value))
  | .name n :: .symbol .equal :: .slot v :: .symbol .comma :: rest =>
    (assignments? rest).map fun r => ((n, v) :: r.1, r.2)
  | .name n :: .symbol .equal :: .slot v :: rest => some ([(n, v)], rest)
  | _ => none

/-- The tokens after the opening say the change. Without columns there is one row, of no values; else
each row has a value for each column. -/
def Opening.Tells : Opening → List (Token Value) → Change → Prop
  | insert policy table [], filled, change =>
    filled = [] ∧ change = .insert ⟨policy, table, [], [[]]⟩
  | insert policy table columns, filled, change =>
    ∃ rows, rows? filled = some rows ∧ (∀ row ∈ rows, row.length = columns.length) ∧
      change = .insert ⟨policy, table, columns, rows⟩
  | update policy table, filled, change =>
    ∃ assignments rest clause, assignments? filled = some (assignments, rest) ∧
      IsClause rest clause ∧ change = .update policy table assignments clause
  | delete table, filled, change =>
    ∃ clause, IsClause filled clause ∧ change = .delete table clause

/-- The text is read as the change, with a value for each placeholder from left to right. -/
def ReadsChange (text : String) (values : List Value) (change : Change) : Prop :=
  ∃ ps opening ts filled, pieces? text.toList = some ps ∧ opening? ps = some (opening, ts) ∧
    fill ts values = some filled ∧ opening.Tells filled change

/-- An opening and what follows it say one change at most. -/
theorem Opening.Tells.unique {opening : Opening} {filled : List (Token Value)} {change other : Change}
    (first : opening.Tells filled change) (second : opening.Tells filled other) : change = other := by
  cases opening with
  | insert policy table columns =>
      cases columns with
      | nil =>
          obtain ⟨-, rfl⟩ := first
          exact second.2.symm
      | cons n ns =>
          obtain ⟨rows, isRows, -, rfl⟩ := first
          obtain ⟨rows', isRows', -, rfl⟩ := second
          rw [Option.some.inj (isRows.symm.trans isRows')]
  | update policy table =>
      obtain ⟨assignments, rest, clause, isAssigned, isClause, rfl⟩ := first
      obtain ⟨assignments', rest', clause', isAssigned', isClause', rfl⟩ := second
      obtain ⟨rfl, rfl⟩ := Prod.mk.inj (Option.some.inj (isAssigned.symm.trans isAssigned'))
      rw [isClause.unique isClause']
  | delete table =>
      obtain ⟨clause, isClause, rfl⟩ := first
      obtain ⟨clause', isClause', rfl⟩ := second
      rw [isClause.unique isClause']

/-- A text and values have no more than one reading. -/
theorem ReadsChange.unique {text : String} {values : List Value} {change other : Change}
    (first : ReadsChange text values change) (second : ReadsChange text values other) :
    change = other := by
  obtain ⟨ps, opening, ts, filled, isText, isOpening, isFilled, tells⟩ := first
  obtain ⟨ps', opening', ts', filled', isText', isOpening', isFilled', tells'⟩ := second
  obtain rfl := Option.some.inj (isText.symm.trans isText')
  obtain ⟨rfl, rfl⟩ := Prod.mk.inj (Option.some.inj (isOpening.symm.trans isOpening'))
  obtain rfl := Option.some.inj (isFilled.symm.trans isFilled')
  exact tells.unique tells'

/-! ## Pieces of a change -/

private theorem tokensOnly?_map (ts : List (Token Unit)) :
    tokensOnly? (ts.map .token) = some ts := by
  have closes : Closes [] := fun t => nofun
  have first := tokensFirst_append closes ts
  rw [List.append_nil] at first
  rw [tokensOnly?, first]

/-- The word of a policy. The word of no policy is never written. -/
def Keyword.ofPolicy : ConflictPolicy → Keyword
  | .unset | .rollback => rollbackWord
  | .abort => abortWord
  | .fail => failWord
  | .ignore => ignoreWord
  | .replace => replaceWord

/-- The words of a policy, none if it is unset. -/
def policyPieces (p : ConflictPolicy) : List Piece :=
  if p = .unset then [] else [.token (.symbol .orWord), .keyword (.ofPolicy p)]

/-- A policy is read before what is none. -/
theorem policy?_pieces (p : ConflictPolicy) {rest : List Piece}
    (apart : rest.head? ≠ some (.token (.symbol .orWord))) :
    policy? (policyPieces p ++ rest) = some (p, rest) := by
  cases p with
  | unset =>
      change policy? rest = _
      rw [policy?]
      rintro k later rfl
      exact apart rfl
  | _ => rfl

/-- The words of a policy, if it has any, before what follows them. -/
theorem Splits.policy (p : ConflictPolicy) {text : List Char} {ps : List Piece}
    (splits : Splits text ps) : Splits ((policyText p).toList ++ text) (policyPieces p ++ ps) := by
  have orWord : Splits Symbol.orWord.text.toList [.token (.symbol .orWord)] :=
    Splits.tokens (Lexes.word (by decide)).whole
  have stated (k : Keyword) {q : ConflictPolicy} (isWord : Keyword.ofPolicy q = k)
      (shape : (policyText q).toList =
        Symbol.orWord.text.toList ++ ' ' :: (k.text.toList ++ [' '])) (isSet : q ≠ .unset) :
      Splits ((policyText q).toList ++ text) (policyPieces q ++ ps) := by
    have whole := orWord.spaced ((Splits.keyword k).spaced splits)
    rw [policyPieces, if_neg isSet, isWord, shape]
    simpa only [List.append_assoc, List.cons_append, List.nil_append] using whole
  cases p with
  | unset => exact splits
  | rollback => exact stated .rollbackWord rfl (by decide) nofun
  | abort => exact stated .abortWord rfl (by decide) nofun
  | fail => exact stated .failWord rfl (by decide) nofun
  | ignore => exact stated .ignoreWord rfl (by decide) nofun
  | replace => exact stated .replaceWord rfl (by decide) nofun

/-! ## Rows of values -/

/-- The values of a row, with a comma between each two. -/
def valueTokens (row : Row) : List (Token Value) :=
  separated .comma (row.map fun v => [.slot v])

/-- The values of a row in parentheses. -/
def rowTokens (row : Row) : List (Token Value) :=
  .symbol .leftParen :: (valueTokens row ++ [.symbol .rightParen])

/-- Rows with a comma between each two. -/
def rowsTokens (rows : List Row) : List (Token Value) :=
  separated .comma (rows.map rowTokens)

private theorem valueTokens_cons_cons (v w : Value) (row : Row) :
    valueTokens (v :: w :: row) = .slot v :: .symbol .comma :: valueTokens (w :: row) :=
  separated_cons_cons _ _ _ _

/-- The last row of values is read up to its parenthesis. -/
theorem rowsFrom?_last (begun : Row) (v : Value) (row : Row) :
    rowsFrom? begun (valueTokens (v :: row) ++ [.symbol .rightParen]) = some [begun ++ v :: row] := by
  induction row generalizing begun v with
  | nil => rfl
  | cons w row ih =>
      have later := ih (begun ++ [v]) w
      rw [List.append_assoc] at later
      rw [valueTokens_cons_cons, List.cons_append, List.cons_append, rowsFrom?, later]
      rfl

/-- A row of values is read, and then those after it. -/
theorem rowsFrom?_more (begun : Row) (v : Value) (row : Row) (rest : List (Token Value)) :
    rowsFrom? begun (valueTokens (v :: row) ++
      .symbol .rightParen :: .symbol .comma :: .symbol .leftParen :: rest) =
      (rowsFrom? [] rest).map ((begun ++ v :: row) :: ·) := by
  induction row generalizing begun v with
  | nil => rfl
  | cons w row ih =>
      have later := ih (begun ++ [v]) w
      rw [List.append_assoc] at later
      rw [valueTokens_cons_cons, List.cons_append, List.cons_append, rowsFrom?, later]
      rfl

/-- Rows of values are read back, if there are values in each. -/
theorem rows?_rowsTokens {row : Row} {rows : List Row} (filled : ∀ r ∈ row :: rows, r ≠ []) :
    rows? (rowsTokens (row :: rows)) = some (row :: rows) := by
  induction rows generalizing row with
  | nil =>
      obtain ⟨v, vs, rfl⟩ := List.exists_cons_of_ne_nil (filled row List.mem_cons_self)
      rw [rowsTokens, List.map_singleton, separated_singleton, rowTokens, rows?, rowsFrom?_last]
      rfl
  | cons next rows ih =>
      obtain ⟨v, vs, rfl⟩ := List.exists_cons_of_ne_nil (filled row List.mem_cons_self)
      have later := ih fun r member => filled r (List.mem_cons_of_mem _ member)
      have begins : ∃ rest, rowsTokens (next :: rows) = .symbol .leftParen :: rest := by
        cases rows with
        | nil => exact ⟨_, separated_singleton _ _⟩
        | cons _ _ => exact ⟨_, separated_cons_cons _ _ _ _⟩
      obtain ⟨rest, begins⟩ := begins
      have isList : rowsTokens ((v :: vs) :: next :: rows) =
          rowTokens (v :: vs) ++ .symbol .comma :: rowsTokens (next :: rows) :=
        separated_cons_cons _ _ _ _
      rw [begins, rows?] at later
      rw [isList, begins, rowTokens, List.cons_append, rows?, List.append_assoc,
        List.singleton_append, rowsFrom?_more, later]
      rfl

/-- The values of the tokens are those of the rows, one row after the other. -/
theorem values_rowsTokens (rows : List Row) :
    (rowsTokens rows).filterMap Token.value? = rows.flatten := by
  rw [rowsTokens, values_separated, List.flatMap_map, ← List.flatMap_id]
  refine List.flatMap_congr fun row _ => ?_
  rw [rowTokens, valueTokens, List.filterMap_cons_none rfl, List.filterMap_append,
    values_separated, List.flatMap_map]
  change List.flatMap (fun v => [v]) row ++ [] = row
  rw [List.append_nil, List.flatMap_singleton']

/-- The text of rows of so many placeholders. -/
theorem splits_rows {rows : List Row} {count : Nat} (each : ∀ row ∈ rows, row.length = count) :
    Splits (listed (List.replicate rows.length (Comparison.placeholders count))).toList
      (((rowsTokens rows).map Token.erase).map .token) := by
  have commaShape : ", ".toList = [',', ' '] := by decide
  have texts : rows.map (fun row => Comparison.placeholders row.length) =
      List.replicate rows.length (Comparison.placeholders count) :=
    List.map_eq_replicate_iff.mpr fun row member => by rw [each row member]
  have lexes : Lexes (", ".intercalate (rows.map fun row => Comparison.placeholders row.length)).toList
      ((rowsTokens rows).map Token.erase) := by
    rw [rowsTokens, map_erase_separated, List.map_map]
    refine Lexes.separated ?_ fun row member => Comparison.lexes_placeholders row
    intro first later ts us firstLexes laterLexes
    rw [commaShape]
    exact firstLexes.append laterLexes.space.comma nofun (Ends.comma _)
  rw [listed, ← texts]
  exact Splits.tokens lexes.whole

/-! ## Assignments -/

/-- The column of an assignment and its value. -/
def assignmentTokens (a : String × Value) : List (Token Value) :=
  [.name a.1, .symbol .equal, .slot a.2]

/-- Assignments with a comma between each two. -/
def assignmentsTokens (as : List (String × Value)) : List (Token Value) :=
  separated .comma (as.map assignmentTokens)

/-- Assignments are read up to something that is no comma. -/
theorem assignments?_tokens {rest : List (Token Value)}
    (apart : ∀ later, rest = .symbol .comma :: later → False) (a : String × Value)
    (as : List (String × Value)) :
    assignments? (assignmentsTokens (a :: as) ++ rest) = some (a :: as, rest) := by
  induction as generalizing a with
  | nil =>
      rw [assignmentsTokens, List.map_singleton, separated_singleton, assignmentTokens]
      change assignments? (.name a.1 :: .symbol .equal :: .slot a.2 :: rest) = _
      rw [assignments?]
      exact apart
  | cons b as ih =>
      have isList : assignmentsTokens (a :: b :: as) =
          assignmentTokens a ++ .symbol .comma :: assignmentsTokens (b :: as) :=
        separated_cons_cons _ _ _ _
      rw [isList, List.append_assoc]
      change assignments? (.name a.1 :: .symbol .equal :: .slot a.2 :: .symbol .comma ::
        (assignmentsTokens (b :: as) ++ rest)) = _
      rw [assignments?, ih b]
      rfl

private theorem values_assignmentsTokens (as : List (String × Value)) :
    (assignmentsTokens as).filterMap Token.value? = as.map (·.2) := by
  rw [assignmentsTokens, values_separated, List.flatMap_map, List.map_eq_flatMap]
  rfl

/-- The text of assignments. -/
theorem splits_assignments (as : List (String × Value)) :
    Splits (listed (as.map fun a => quoted a.1 ++ " = ?")).toList
      (((assignmentsTokens as).map Token.erase).map .token) := by
  have commaShape : ", ".toList = [',', ' '] := by decide
  have lexes : Lexes (", ".intercalate (as.map fun a => quoted a.1 ++ " = ?")).toList
      ((assignmentsTokens as).map Token.erase) := by
    rw [assignmentsTokens, map_erase_separated, List.map_map]
    refine Lexes.separated ?_ fun a member => ?_
    · intro first later ts us firstLexes laterLexes
      rw [commaShape]
      exact firstLexes.append laterLexes.space.comma nofun (Ends.comma _)
    · have equals : Lexes " = ?".toList [.symbol .equal, .slot ()] :=
        Comparison.lexes_compared (s := .equal) (by decide) (by decide)
      rw [String.toList_append, quoted, Text.quoteWith, String.toList_ofList]
      exact (Lexes.name a.1).append equals (by decide) (Ends.space _)
  exact Splits.tokens lexes.whole

/-- No clause begins with a comma. -/
theorem clause_notComma (cs : List Condition) (later : List (Token Value)) :
    Conditions.tokens cs = .symbol .comma :: later → False := by
  cases cs with
  | nil => exact nofun
  | cons c cs =>
      intro same
      cases (List.cons.inj same).1

end Sql

open Sql

/-! ## Texts of changes -/

namespace InsertStatement

/-- The text of an insertion up to its values. -/
theorem splits_insert (policy : ConflictPolicy) (table : String) {rest : List Char} {ps : List Piece}
    (splits : Splits rest ps) :
    Splits ("INSERT ".toList ++ ((policyText policy).toList ++
        ("INTO ".toList ++ ((quoted table).toList ++ ' ' :: rest))))
      (.keyword .insertWord :: (policyPieces policy ++
        .keyword .intoWord :: .token (.name table) :: ps)) := by
  have insertShape : "INSERT ".toList = Keyword.insertWord.text.toList ++ [' '] := by decide
  have intoShape : "INTO ".toList = Keyword.intoWord.text.toList ++ [' '] := by decide
  have ofTable := (Splits.keyword .intoWord).spaced ((splits_quoted table).spaced splits)
  have whole := (Splits.keyword .insertWord).spaced (Splits.policy policy ofTable)
  rw [insertShape, intoShape]
  simpa only [List.append_assoc, List.cons_append, List.nil_append] using whole

private theorem opening?_pieces {policy : ConflictPolicy} {table : String} {ps : List Piece}
    {columns : List String} {ts : List (Token Unit)} (isGiven : given? ps = some (columns, ts)) :
    opening? (.keyword .insertWord :: (policyPieces policy ++
      .keyword .intoWord :: .token (.name table) :: ps)) =
      some (.insert policy table columns, ts) := by
  have isPolicy : policy? (policyPieces policy ++ .keyword .intoWord :: .token (.name table) :: ps) =
      some (policy, .keyword .intoWord :: .token (.name table) :: ps) :=
    policy?_pieces policy nofun
  rw [opening?, isPolicy]
  dsimp only
  rw [isGiven]
  rfl

/-- An insertion without columns has no values. -/
theorem readsChange_default (policy : ConflictPolicy) (table : String) (rows : List Row)
    (empty : ∀ row ∈ rows, row.length = 0) :
    ReadsChange (statement ⟨policy, table, [], rows⟩).text (statement ⟨policy, table, [], rows⟩).params
      (.insert ⟨policy, table, [], [[]]⟩) := by
  have noValues : rows.flatten = [] :=
    List.flatten_eq_nil_iff.mpr fun row member => List.length_eq_zero_iff.mp (empty row member)
  have shape : " DEFAULT VALUES".toList =
      ' ' :: (Keyword.defaultWord.text.toList ++ ' ' :: Keyword.valuesWord.text.toList) := by decide
  have whole := splits_insert policy table
    ((Splits.keyword .defaultWord).spaced (Splits.keyword .valuesWord))
  rw [← shape] at whole
  have isGiven : given? ([.keyword .defaultWord] ++ [.keyword .valuesWord]) = some ([], []) := rfl
  refine ⟨_, .insert policy table [], [], [], ?_, opening?_pieces isGiven, ?_, rfl, rfl⟩
  · have read := whole.whole
    simpa only [statement, textFor, List.isEmpty_nil, if_true, String.toList_append,
      List.append_assoc] using read
  · rw [statement, noValues]
    rfl

/-- The text of the columns and the values of an insertion. -/
theorem splits_given {columns : List String} {rows : List Row}
    (each : ∀ row ∈ rows, row.length = columns.length) :
    Splits ('(' :: ((listed (columns.map quoted)).toList ++ (") VALUES ".toList ++
        (listed (List.replicate rows.length (Comparison.placeholders columns.length))).toList)))
      (.token (.symbol .leftParen) :: (listPieces (columns.map fun n => [.token (.name n)]) ++
        .token (.symbol .rightParen) :: .keyword .valuesWord ::
          ((rowsTokens rows).map Token.erase).map .token)) := by
  have valuesShape : ") VALUES ".toList =
      ')' :: ' ' :: (Keyword.valuesWord.text.toList ++ [' ']) := by decide
  have names : Splits (listed (columns.map quoted)).toList
      (listPieces (columns.map fun n => [.token (.name n)])) :=
    Splits.separated fun n _ => splits_quoted n
  have values := ((Splits.keyword .valuesWord).spaced (splits_rows each)).space
  have whole := (names.append values.rightParen (Ends.rightParen _)).leftParen
  rw [valuesShape]
  simpa only [List.append_assoc, List.cons_append, List.nil_append] using whole

/-- **What an insertion says.** The text of an insertion is read as the insertion and as nothing else,
if there are rows and each has a value for each column. Without columns it is read as the insertion of
one row of no values. -/
theorem readsChange_text_iff {s : InsertStatement} (rows : s.columns ≠ [] → s.rows ≠ [])
    (full : ∀ row ∈ s.rows, row.length = s.columns.length) (change : Change) :
    ReadsChange s.statement.text s.statement.params change ↔
      change = .insert { s with rows := if s.columns.isEmpty then [[]] else s.rows } := by
  have isRead : ReadsChange s.statement.text s.statement.params
      (.insert { s with rows := if s.columns.isEmpty then [[]] else s.rows }) := by
    obtain ⟨policy, table, columns, values⟩ := s
    cases columns with
    | nil => exact readsChange_default policy table values full
    | cons n ns =>
        obtain ⟨row, more, rfl⟩ := List.exists_cons_of_ne_nil (rows nofun)
        have filled : ∀ r ∈ row :: more, r ≠ [] := by
          rintro r member rfl
          cases full [] member
        have whole := splits_insert policy table (splits_given full)
        have isGiven : given? (.token (.symbol .leftParen) ::
            (listPieces ((n :: ns).map fun n => [.token (.name n)]) ++
              .token (.symbol .rightParen) :: .keyword .valuesWord ::
                ((rowsTokens (row :: more)).map Token.erase).map .token)) =
            some (n :: ns, (rowsTokens (row :: more)).map Token.erase) := by
          rw [given?, names?_listPieces ?apart n ns]
          case apart => exact nofun
          dsimp only
          rw [tokensOnly?_map]
          rfl
        refine ⟨_, _, _, rowsTokens (row :: more), ?_, opening?_pieces isGiven, ?_,
          row :: more, rows?_rowsTokens filled, full, rfl⟩
        · have openShape : " (".toList = [' ', '('] := by decide
          have notEmpty : (n :: ns).isEmpty = false := rfl
          have read := whole.whole
          simpa only [statement, textFor, notEmpty, Bool.false_eq_true, if_false,
            String.toList_append, openShape, List.append_assoc, List.cons_append,
            List.nil_append] using read
        · rw [statement, ← values_rowsTokens]
          exact fill_erase _
  exact ⟨fun other => other.unique isRead, fun same => same ▸ isRead⟩

end InsertStatement

/-- **What an update says.** The text of an update is read as its policy, its table, its assignments
and the conjunction of its conditions, and as nothing else. -/
theorem UpdateStatement.readsChange_text_iff {s : UpdateStatement} (assigns : s.assignments ≠ [])
    (counted : ∀ c ∈ s.conditions, c.Counted) (change : Change) :
    ReadsChange s.statement.text s.statement.params change ↔
      change = .update s.policy s.table s.assignments
        ((Conditions.together s.conditions).map (·.expr)) := by
  have updateShape : "UPDATE ".toList = Keyword.updateWord.text.toList ++ [' '] := by decide
  have setShape : " SET ".toList = ' ' :: (Keyword.setWord.text.toList ++ [' ']) := by decide
  let ts := assignmentsTokens s.assignments ++ Conditions.tokens s.conditions
  have tokens : Splits ((listed (s.assignments.map fun a => quoted a.1 ++ " = ?")).toList ++
      (Conditions.text s.conditions).toList) ((ts.map Token.erase).map .token) := by
    rw [List.map_append, List.map_append]
    exact (splits_assignments s.assignments).append (Splits.tokens (Conditions.tokens?_text _))
      (Conditions.ends_text _)
  have whole := (Splits.keyword .updateWord).spaced (Splits.policy s.policy
    ((splits_quoted s.table).spaced ((Splits.keyword .setWord).spaced tokens)))
  have isOpening : opening? (.keyword .updateWord :: (policyPieces s.policy ++
      .token (.name s.table) :: .keyword .setWord :: (ts.map Token.erase).map .token)) =
      some (.update s.policy s.table, ts.map Token.erase) := by
    have isPolicy : policy? (policyPieces s.policy ++ .token (.name s.table) :: .keyword .setWord ::
        (ts.map Token.erase).map .token) = some (s.policy, _) := policy?_pieces s.policy nofun
    rw [opening?, isPolicy]
    dsimp only
    rw [tokensOnly?_map]
    rfl
  obtain ⟨a, as, isList⟩ := List.exists_cons_of_ne_nil assigns
  have assigned : assignments? ts = some (s.assignments, Conditions.tokens s.conditions) := by
    change assignments? (assignmentsTokens s.assignments ++ _) = _
    rw [isList]
    exact assignments?_tokens (clause_notComma s.conditions) a as
  have values : ts.filterMap Token.value? = s.statement.params := by
    rw [List.filterMap_append, values_assignmentsTokens, Conditions.values_tokens counted]
    rfl
  have isRead : ReadsChange s.statement.text s.statement.params
      (.update s.policy s.table s.assignments
        ((Conditions.together s.conditions).map (·.expr))) := by
    refine ⟨_, _, _, ts, ?_, isOpening, ?_, s.assignments, _, _, assigned,
      Conditions.isClause s.conditions, rfl⟩
    · have read := whole.whole
      simpa only [statement, String.toList_append, updateShape, setShape, List.append_assoc,
        List.cons_append, List.nil_append] using read
    · rw [← values]
      exact fill_erase ts
  exact ⟨fun other => other.unique isRead, fun same => same ▸ isRead⟩

/-- **What a deletion says.** The text of a deletion is read as its table and the conjunction of its
conditions, and as nothing else. -/
theorem DeleteStatement.readsChange_text_iff {s : DeleteStatement}
    (counted : ∀ c ∈ s.conditions, c.Counted) (change : Change) :
    ReadsChange s.statement.text s.statement.params change ↔
      change = .delete s.table ((Conditions.together s.conditions).map (·.expr)) := by
  have shape : "DELETE FROM ".toList = Keyword.deleteWord.text.toList ++
      ' ' :: (Keyword.fromWord.text.toList ++ [' ']) := by decide
  have clause := Splits.tokens (Conditions.tokens?_text s.conditions)
  have whole := (Splits.keyword .deleteWord).spaced ((Splits.keyword .fromWord).spaced
    ((splits_quoted s.table).append clause (Conditions.ends_text _)))
  have isOpening : opening? (.keyword .deleteWord :: .keyword .fromWord :: .token (.name s.table) ::
      ((Conditions.tokens s.conditions).map Token.erase).map .token) =
      some (.delete s.table, (Conditions.tokens s.conditions).map Token.erase) := by
    rw [opening?, tokensOnly?_map]
    rfl
  have isRead : ReadsChange s.statement.text s.statement.params
      (.delete s.table ((Conditions.together s.conditions).map (·.expr))) := by
    refine ⟨_, _, _, Conditions.tokens s.conditions, ?_, isOpening, ?_, _,
      Conditions.isClause s.conditions, rfl⟩
    · have read := whole.whole
      simpa only [statement, String.toList_append, shape, List.append_assoc, List.cons_append,
        List.nil_append] using read
    · rw [statement, ← Conditions.values_tokens counted]
      exact fill_erase _
  exact ⟨fun other => other.unique isRead, fun same => same ▸ isRead⟩

end Tabula
