import Tabula.Engine.Truth
import Tabula.Model.Filter
import Tabula.Proofs.Query.ConditionText
import Tabula.Query.Surface

/-! # Clauses

What a list of conditions says after `WHERE`. In the grammar of expressions its text and its operands
have one reading, and that is the conjunction of the conditions, each with its own operands
(`Tabula.Conditions.readsClause_text_iff`). Lists with the same text and operands are met by the same
rows.
-/

namespace Tabula

open Sql

/-! ## Conditions that can be built -/

/-- The condition is built by a surface or a model, and joined from such. -/
inductive Condition.Offered : Condition → Prop
  | compared {s : Surface} {name : String} {op : Comparison} {operands : List Value}
      {c : Condition} : s.condition name op operands = .ok c → Offered c
  | keyed (s : Surface) (key : Value) : Offered (s.keyCondition key)
  | filtered {m : Model} (f : Filter m) : Offered f.condition
  | modelKeyed (m : Model) (key : Value) : Offered (m.keyCondition key)
  | both {left right : Condition} : Offered left → Offered right → Offered (.both left right)
  | either {left right : Condition} : Offered left → Offered right → Offered (.either left right)

/-- What a surface builds has as many operands as its comparison asks for. -/
theorem Surface.counted_condition {s : Surface} {name : String} {op : Comparison}
    {operands : List Value} {c : Condition} (built : s.condition name op operands = .ok c) :
    c.Counted := by
  unfold Surface.condition at built
  cases found : s.offering name (.compare op) with
  | error e =>
      rw [found] at built
      cases built
  | ok column =>
      rw [found] at built
      dsimp only [bind, Except.bind] at built
      split at built
      · rename_i n isCount
        split at built
        · rename_i same
          obtain rfl := Except.ok.inj built
          intro m isCount'
          rw [same, Option.some.inj (isCount.symm.trans isCount')]
        · cases built
      · rename_i noCount
        obtain rfl := Except.ok.inj built
        intro m isCount
        cases noCount.symm.trans isCount

/-- An offered condition has as many operands as its comparison asks for. -/
theorem Condition.Offered.counted {c : Condition} (offered : c.Offered) : c.Counted := by
  have one : ∀ (name : String) (key : Value), (Condition.compare name .eq [key]).Counted := by
    intro name key n isCount
    exact Option.some.inj isCount
  induction offered with
  | compared built => exact Surface.counted_condition built
  | keyed s key => exact one _ key
  | filtered f => exact f.counted_condition
  | modelKeyed m key => exact one _ key
  | both left right ihLeft ihRight => exact ⟨ihLeft, ihRight⟩
  | either left right ihLeft ihRight => exact ⟨ihLeft, ihRight⟩

/-- A conjunction is true just if both of its parts are. -/
theorem Truth.and_eq_true (a b : Truth) :
    (a.and b == some true) = (a == some true && b == some true) := by
  rcases a with _ | _ | _ <;> rcases b with _ | _ | _ <;> rfl

/-! ## Clauses of the grammar -/

/-- The tokens are the clause: an expression after `WHERE`, or nothing. -/
def Sql.IsClause (filled : List (Token Value)) : Option Expr → Prop
  | none => filled = []
  | some e => ∃ rest, filled = .symbol .whereWord :: rest ∧ Reads .disjunction rest e

/-- The text is read as the clause, with a value for each placeholder from left to right. -/
def Sql.ReadsClause (text : String) (values : List Value) (clause : Option Expr) : Prop :=
  ∃ ts filled, tokens? text.toList = some ts ∧ fill ts values = some filled ∧
    IsClause filled clause

/-- The tokens are read as the clause, with a value for each placeholder from left to right. -/
def Sql.ReadsTokens (ts : List (Token Unit)) (values : List Value) (clause : Option Expr) : Prop :=
  ∃ filled, fill ts values = some filled ∧ IsClause filled clause

/-- Tokens are one clause at most. -/
theorem Sql.IsClause.unique {filled : List (Token Value)} {clause other : Option Expr}
    (isClause : IsClause filled clause) (isOther : IsClause filled other) : clause = other := by
  cases clause with
  | none =>
      cases other with
      | none => rfl
      | some f =>
          obtain ⟨rest, starts, -⟩ := isOther
          cases isClause.symm.trans starts
  | some e =>
      obtain ⟨rest, starts, reads⟩ := isClause
      cases other with
      | none => cases isOther.symm.trans starts
      | some f =>
          obtain ⟨rest', starts', reads'⟩ := isOther
          obtain ⟨-, rfl⟩ := List.cons.inj (starts.symm.trans starts')
          rw [reads.unique reads']

/-- Tokens and values have no more than one reading. -/
theorem Sql.ReadsTokens.unique {ts : List (Token Unit)} {values : List Value}
    {clause other : Option Expr} (first : ReadsTokens ts values clause)
    (second : ReadsTokens ts values other) : clause = other := by
  obtain ⟨filled, isFilled, isClause⟩ := first
  obtain ⟨again, isFilled', isOther⟩ := second
  obtain rfl := Option.some.inj (isFilled.symm.trans isFilled')
  exact isClause.unique isOther

/-- A text and values have no more than one reading. -/
theorem Sql.ReadsClause.unique {text : String} {values : List Value} {clause other : Option Expr}
    (first : ReadsClause text values clause) (second : ReadsClause text values other) :
    clause = other := by
  obtain ⟨ts, filled, isText, reads⟩ := first
  obtain ⟨us, again, isText', reads'⟩ := second
  obtain rfl := Option.some.inj (isText.symm.trans isText')
  exact ReadsTokens.unique ⟨filled, reads⟩ ⟨again, reads'⟩

namespace Conditions

/-- The tokens of the conditions, after `WHERE`. -/
def tokens : List Condition → List (Token Value)
  | [] => []
  | c :: cs => .symbol .whereWord :: separated .andWord ((c :: cs).map (·.tokens))

/-- The text falls into the tokens. -/
theorem tokens?_text (cs : List Condition) :
    tokens? (text cs).toList = some ((tokens cs).map Token.erase) := by
  have whereShape : " WHERE ".toList = ' ' :: (Symbol.whereWord.text.toList ++ [' ']) := by decide
  have andShape : " AND ".toList = ' ' :: (Symbol.andWord.text.toList ++ [' ']) := by decide
  cases cs with
  | nil => exact tokens?_nil
  | cons c cs =>
      have inside : Lexes (" AND ".intercalate ((c :: cs).map (·.text))).toList
          ((separated .andWord ((c :: cs).map (·.tokens))).map Token.erase) := by
        rw [map_erase_separated, List.map_map]
        refine Lexes.separated ?_ fun d member => d.lexes
        intro first later ts us firstLexes laterLexes
        rw [andShape, List.cons_append, List.append_assoc]
        exact firstLexes.joined (by decide) laterLexes
      rw [text, if_neg nofun, String.toList_append, whereShape, List.cons_append, List.append_assoc]
      exact ((Lexes.word (by decide)).spaced inside).space.whole

/-- The values of the tokens are the operands. -/
theorem values_tokens {cs : List Condition} (counted : ∀ c ∈ cs, c.Counted) :
    (tokens cs).filterMap Token.value? = operands cs := by
  cases cs with
  | nil => rfl
  | cons c cs =>
      rw [tokens, List.filterMap_cons_none rfl, values_separated, List.flatMap_map, operands]
      exact List.flatMap_congr fun d member => Condition.values_tokens (counted d member)

/-- Conditions with AND between each two make their conjunction. -/
theorem reads_conjunction (cs : List Condition) {ts : List (Token Value)} {c : Condition}
    (reads : Reads .conjunction ts c.expr) :
    Reads .conjunction (separated .andWord (ts :: cs.map (·.tokens))) (cs.foldl .both c).expr := by
  induction cs generalizing ts c with
  | nil =>
      rw [List.map_nil, separated_singleton]
      exact reads
  | cons d cs ih =>
      have joined : Reads .conjunction (ts ++ ([.symbol .andWord] ++ d.tokens))
          (Condition.both c d).expr := Reads.binary .and reads d.reads
      have others := ih joined
      rw [separated_append, separated_append] at others
      rw [List.map_cons, separated_cons_cons]
      exact others

/-- A conjunction is true if each of its conditions is. -/
theorem truth_foldl (t : Table) (r : StoredRow) (cs : List Condition) (c : Condition) :
    ((cs.foldl .both c).truth t r == some true) =
      ((c :: cs).all fun d => d.truth t r == some true) := by
  induction cs generalizing c with
  | nil => rw [List.foldl_nil, List.all_cons, List.all_nil, Bool.and_true]
  | cons d cs ih =>
      rw [List.foldl_cons, ih, List.all_cons, List.all_cons, List.all_cons, Condition.truth,
        Truth.and_eq_true, Bool.and_assoc]

/-- The conditions are met when their conjunction is true. -/
theorem meets_eq (t : StoredTable) (r : StoredRow) (cs : List Condition) :
    t.meets cs r = (together cs).all fun c => c.truth t.definition r == some true := by
  cases cs with
  | nil => rfl
  | cons c cs => exact (truth_foldl t.definition r cs c).symm

/-- The tokens of conditions are the clause of their conjunction. -/
theorem isClause (cs : List Condition) : IsClause (tokens cs) ((together cs).map (·.expr)) := by
  cases cs with
  | nil => rfl
  | cons c cs =>
      have conjunction := reads_conjunction cs (.tighter c.reads)
      exact ⟨_, rfl, conjunction.loosen (by decide)⟩

/-- The tokens of conditions are read as their conjunction. -/
theorem readsTokens {cs : List Condition} (counted : ∀ c ∈ cs, c.Counted) :
    ReadsTokens ((tokens cs).map Token.erase) (operands cs) ((together cs).map (·.expr)) := by
  refine ⟨tokens cs, ?_, isClause cs⟩
  rw [← values_tokens counted]
  exact fill_erase (tokens cs)

/-- The text of conditions is read as their conjunction. -/
theorem readsClause_text {cs : List Condition} (counted : ∀ c ∈ cs, c.Counted) :
    ReadsClause (text cs) (operands cs) ((together cs).map (·.expr)) := by
  obtain ⟨filled, reads⟩ := readsTokens counted
  exact ⟨_, filled, tokens?_text cs, reads⟩

private theorem counted_foldl {cs : List Condition} {c : Condition} (countedHead : c.Counted)
    (counted : ∀ d ∈ cs, d.Counted) : (cs.foldl .both c).Counted := by
  induction cs generalizing c with
  | nil => exact countedHead
  | cons d cs ih =>
      have countedBoth : (Condition.both c d).Counted :=
        ⟨countedHead, counted d List.mem_cons_self⟩
      apply ih countedBoth
      intro e member
      exact counted e (List.mem_cons_of_mem d member)

/-- The conjunction of conditions has as many operands as its comparisons take. -/
theorem counted_together {cs : List Condition} (counted : ∀ c ∈ cs, c.Counted) :
    ∀ c ∈ together cs, c.Counted := by
  cases cs with
  | nil => exact nofun
  | cons c cs =>
      rintro _ ⟨⟩
      apply counted_foldl (counted c List.mem_cons_self)
      intro d member
      exact counted d (List.mem_cons_of_mem c member)

/-- The conjunction of conditions can be told from its expression. -/
theorem bind_condition? {cs : List Condition} (counted : ∀ c ∈ cs, c.Counted) :
    ((together cs).map (·.expr)).bind Expr.condition? = together cs := by
  cases joined : together cs with
  | none => rfl
  | some c => exact Expr.condition?_expr (counted_together counted c joined)

/-- **One reading.** The text of conditions with their operands is read as the conjunction of the
conditions and as nothing else. Conditions of the same text and operands therefore have the same
conjunction, and the same rows meet them. -/
theorem readsClause_text_iff {cs : List Condition} (offered : ∀ c ∈ cs, c.Offered) :
    (∀ clause, ReadsClause (text cs) (operands cs) clause ↔
      clause = (together cs).map (·.expr)) ∧
    ∀ ds : List Condition, (∀ d ∈ ds, d.Offered) → text ds = text cs → operands ds = operands cs →
      together ds = together cs ∧
      ∀ (t : StoredTable) (r : StoredRow), t.meets ds r = t.meets cs r := by
  have counted : ∀ {es : List Condition}, (∀ e ∈ es, e.Offered) → ∀ e ∈ es, e.Counted :=
    fun offered e member => (offered e member).counted
  have isRead := readsClause_text (counted offered)
  refine ⟨fun clause => ⟨fun other => other.unique isRead, fun same => same ▸ isRead⟩, ?_⟩
  intro ds offered' sameText sameOperands
  have same : together ds = together cs := by
    have isRead' := readsClause_text (counted offered')
    rw [sameText, sameOperands] at isRead'
    rw [← bind_condition? (counted offered'), isRead'.unique isRead,
      bind_condition? (counted offered)]
  refine ⟨same, fun t r => ?_⟩
  rw [meets_eq, meets_eq, same]

/-- A surface whose names look like more of a clause. -/
def awkwardSurface : Surface where
  table := "Item"
  columns := [⟨"a\" OR ?", 0, .integer, .conditions, .orders⟩,
    ⟨"IS NULL", 1, .text, .conditions, .orders⟩]
  autoKey := none
  inserted := ["a\" OR ?", "IS NULL"]
  target := .rowid
  updatable := ["a\" OR ?", "IS NULL"]

/-- Conditions with every kind of parenthesis, and an AND that joins none. -/
def awkward : List Condition :=
  [.compare "a\" OR ?" .between [.integer 1, .integer 5],
    .either (.compare "IS NULL" .notInList [])
      (.both (.compare "IS NULL" .inList [.text "?", .null]) (.compare "a\" OR ?" .isNotNull []))]

private theorem awkward_offered : ∀ c ∈ awkward, c.Offered := by
  have compared (name : String) (op : Comparison) (operands : List Value)
      (built : awkwardSurface.condition name op operands = .ok (.compare name op operands)) :
      (Condition.compare name op operands).Offered := .compared built
  have first := compared "a\" OR ?" .between [.integer 1, .integer 5] (by decide +kernel)
  have second := compared "IS NULL" .notInList [] (by decide +kernel)
  have third := compared "IS NULL" .inList [.text "?", .null] (by decide +kernel)
  have fourth := compared "a\" OR ?" .isNotNull [] (by decide +kernel)
  intro c member
  rcases List.mem_pair.mp member with rfl | rfl
  · exact first
  · exact .either second (.both third fourth)

/-- Names that look like words and placeholders do not change how conditions are read. -/
theorem readsClause_text_iff_awkward :
    (∀ c ∈ awkward, c.Offered) ∧
    text awkward = " WHERE \"a\"\" OR ?\" BETWEEN ? AND ? AND (\"IS NULL\" NOT IN () OR " ++
      "(\"IS NULL\" IN (?, ?) AND \"a\"\" OR ?\" IS NOT NULL))" ∧
    operands awkward = [.integer 1, .integer 5, .text "?", .null] ∧
    ∀ clause, ReadsClause (text awkward) (operands awkward) clause ↔
      clause = some (.binary .and
        (.between false (.column "a\" OR ?") (.value (.integer 1)) (.value (.integer 5)))
        (.binary .or (.member true (.column "IS NULL") [])
          (.binary .and (.member false (.column "IS NULL") [.value (.text "?"), .value .null])
            (.binary .isNot (.column "a\" OR ?") .null)))) :=
  ⟨awkward_offered, by decide +kernel, by decide +kernel, (readsClause_text_iff awkward_offered).1⟩

end Conditions

end Tabula
