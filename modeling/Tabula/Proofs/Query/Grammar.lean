import Tabula.Proofs.Query.Token

/-! # The grammar of expressions

Which tokens make which expression. Disjunctions hold together least, then conjunctions, negations,
comparisons for equality (with `IS`, `IN` and `BETWEEN`), comparisons by order, and single tokens and
groups most. Operators of one level go from left to right. The grammar has a rule for each form of
expression (`Tabula.Sql.Reads`) and says nothing about how a rule is found.
-/

namespace Tabula.Sql

/-! ## Levels -/

/-- How tightly an expression holds together, from the loosest. -/
inductive Level where
  | disjunction
  | conjunction
  | negation
  | equality
  | order
  | atom
deriving DecidableEq

namespace Level

/-- The place of the level, the loosest first. -/
def rank : Level → Nat
  | disjunction => 0
  | conjunction => 1
  | negation => 2
  | equality => 3
  | order => 4
  | atom => 5

/-- The next tighter level. Nothing is tighter than a token or a group. -/
def next : Level → Level
  | disjunction => conjunction
  | conjunction => negation
  | negation => equality
  | equality => order
  | order => atom
  | atom => atom

private theorem rank_injective {l m : Level} (same : l.rank = m.rank) : l = m := by
  cases l <;> cases m <;> first | rfl | cases same

/-- No level binds more closely than the atoms. -/
theorem rank_le_atom (l : Level) : l.rank ≤ atom.rank := by
  cases l <;> decide

/-- The next level binds more closely by one. -/
theorem rank_next {l : Level} (notAtom : l ≠ atom) : l.next.rank = l.rank + 1 := by
  cases l with
  | atom => exact absurd rfl notAtom
  | _ => rfl

/-- The next level binds no less closely. -/
theorem rank_le_next (l : Level) : l.rank ≤ l.next.rank := by
  cases l <;> decide

end Level

/-! ## Expressions -/

/-- The operators with two operands. -/
inductive Operator where
  | or
  | and
  | equal
  | unequal
  | is
  | isNot
  | less
  | lessEqual
  | greater
  | greaterEqual
deriving DecidableEq

/-- How tightly the operator holds its operands. -/
def Operator.level : Operator → Level
  | or => .disjunction
  | and => .conjunction
  | equal | unequal | is | isNot => .equality
  | less | lessEqual | greater | greaterEqual => .order

/-- What stands after a first operand. -/
inductive Connective where
  | binary (op : Operator)
  | member (negated : Bool)
  | between (negated : Bool)
deriving DecidableEq

namespace Connective

/-- How tightly the connective holds its operands. -/
def level : Connective → Level
  | binary op => op.level
  | member _ | between _ => .equality

/-- The symbols up to the next operand. -/
def symbols : Connective → List Symbol
  | binary .or => [.orWord]
  | binary .and => [.andWord]
  | binary .equal => [.equal]
  | binary .unequal => [.unequal]
  | binary .is => [.isWord]
  | binary .isNot => [.isWord, .notWord]
  | binary .less => [.less]
  | binary .lessEqual => [.lessEqual]
  | binary .greater => [.greater]
  | binary .greaterEqual => [.greaterEqual]
  | member false => [.inWord, .leftParen]
  | member true => [.notWord, .inWord, .leftParen]
  | between false => [.betweenWord]
  | between true => [.notWord, .betweenWord]

/-- The tokens up to the next operand. -/
def tokens {α : Type} (c : Connective) : List (Token α) :=
  c.symbols.map .symbol

/-- No connective stands at the level of negation. -/
theorem level_ne_negation (c : Connective) : c.level ≠ .negation := by
  cases c with
  | binary op => cases op <;> decide
  | member negated => exact nofun
  | between negated => exact nofun

/-- No connective stands at the level of the atoms. -/
theorem level_ne_atom (c : Connective) : c.level ≠ .atom := by
  cases c with
  | binary op => cases op <;> decide
  | member negated => exact nofun
  | between negated => exact nofun

end Connective

/-- An expression. -/
inductive Expr where
  | column (name : String)
  | value (v : Value)
  | null
  | not (e : Expr)
  | binary (op : Operator) (left right : Expr)
  | member (negated : Bool) (e : Expr) (items : List Expr)
  | between (negated : Bool) (e low high : Expr)

/-- Lists of tokens with a symbol between each two. -/
def separated {α : Type} (s : Symbol) (tss : List (List (Token α))) : List (Token α) :=
  List.intercalate [.symbol s] tss

section Separated

variable {α : Type} (s : Symbol)

/-- A single part needs no symbol. -/
theorem separated_singleton (ts : List (Token α)) : separated s [ts] = ts :=
  List.intercalate_singleton

/-- There is a symbol after the first of several parts. -/
theorem separated_cons_cons (ts us : List (Token α)) (tss : List (List (Token α))) :
    separated s (ts :: us :: tss) = ts ++ .symbol s :: separated s (us :: tss) := by
  rw [separated, List.intercalate_cons_cons, List.append_assoc]
  rfl

/-- The first part may be taken off piece by piece. -/
theorem separated_append (ts us : List (Token α)) (tss : List (List (Token α))) :
    separated s ((ts ++ us) :: tss) = ts ++ separated s (us :: tss) := by
  cases tss with
  | nil => rw [separated_singleton, separated_singleton]
  | cons vs tss => rw [separated_cons_cons, separated_cons_cons, List.append_assoc]

/-- Values are erased part by part. -/
theorem map_erase_separated (tss : List (List (Token α))) :
    (separated s tss).map Token.erase = separated s (tss.map (·.map Token.erase)) := by
  induction tss with
  | nil => rfl
  | cons ts tss ih =>
      cases tss with
      | nil => rw [List.map_singleton, separated_singleton, separated_singleton]
      | cons us tss =>
          rw [separated_cons_cons, List.map_append, List.map_cons, ih, List.map_cons,
            List.map_cons, List.map_cons, separated_cons_cons]
          rfl

/-- The values are those of the parts, since symbols have none. -/
theorem values_separated (tss : List (List (Token α))) :
    (separated s tss).filterMap Token.value? = tss.flatMap (·.filterMap Token.value?) := by
  induction tss with
  | nil => rfl
  | cons ts tss ih =>
      cases tss with
      | nil => rw [separated_singleton, List.flatMap_singleton]
      | cons us tss =>
          rw [separated_cons_cons, List.filterMap_append, List.filterMap_cons_none rfl, ih,
            ← List.flatMap_cons]

end Separated

/-- The tokens make the expression, which holds together at least as tightly as the level says. -/
inductive Reads : Level → List (Token Value) → Expr → Prop
  | column (n : String) : Reads .atom [.name n] (.column n)
  | value (v : Value) : Reads .atom [.slot v] (.value v)
  | null : Reads .atom [.symbol .nullWord] .null
  | group {ts : List (Token Value)} {e : Expr} :
      Reads .disjunction ts e →
      Reads .atom (.symbol .leftParen :: (ts ++ [.symbol .rightParen])) e
  | not {ts : List (Token Value)} {e : Expr} :
      Reads .negation ts e → Reads .negation (.symbol .notWord :: ts) (.not e)
  | binary (op : Operator) {ls rs : List (Token Value)} {l r : Expr} :
      Reads op.level ls l → Reads op.level.next rs r →
      Reads op.level (ls ++ ((Connective.binary op).tokens ++ rs)) (.binary op l r)
  | member (negated : Bool) {ts : List (Token Value)} {e : Expr}
      {items : List (List (Token Value) × Expr)} :
      Reads .equality ts e → (∀ item ∈ items, Reads .disjunction item.1 item.2) →
      Reads .equality
        (ts ++ ((Connective.member negated).tokens ++
          (separated .comma (items.map (·.1)) ++ [.symbol .rightParen])))
        (.member negated e (items.map (·.2)))
  -- The lower bound may be anything that the AND after it does not hold more tightly.
  | between (negated : Bool) {ts ls hs : List (Token Value)} {e low high : Expr} :
      Reads .equality ts e → Reads .negation ls low → Reads .order hs high →
      Reads .equality
        (ts ++ ((Connective.between negated).tokens ++ (ls ++ .symbol .andWord :: hs)))
        (.between negated e low high)
  | tighter {l : Level} {ts : List (Token Value)} {e : Expr} : Reads l.next ts e → Reads l ts e

namespace Reads

/-- What holds together tightly also does so loosely. -/
theorem loosen {l m : Level} {ts : List (Token Value)} {e : Expr} (reads : Reads l ts e)
    (looser : m.rank ≤ l.rank) : Reads m ts e := by
  by_cases same : m = l
  · exact same ▸ reads
  · have below : m.rank < l.rank :=
      Nat.lt_of_le_of_ne looser fun equal => same (Level.rank_injective equal)
    have notAtom : m ≠ .atom := by
      rintro rfl
      exact absurd (l.rank_le_atom) (Nat.not_le_of_lt below)
    have step := Level.rank_next notAtom
    exact .tighter (reads.loosen (by omega))
termination_by l.rank - m.rank
decreasing_by omega

/-- The tokens of an expression begin with something that no list of operands ends with, and with
NOT only where a negation may stand. -/
theorem head {l : Level} {ts : List (Token Value)} {e : Expr} (reads : Reads l ts e) :
    ∃ t rest, ts = t :: rest ∧ t ≠ .symbol .rightParen ∧
      (t = .symbol .notWord → l.rank ≤ Level.negation.rank) := by
  have goesOn : ∀ {l m : Level} {first others : List (Token Value)},
      (∃ t rest, first = t :: rest ∧ t ≠ .symbol .rightParen ∧
        (t = .symbol .notWord → l.rank ≤ Level.negation.rank)) → m.rank ≤ l.rank →
      ∃ t rest, first ++ others = t :: rest ∧ t ≠ .symbol .rightParen ∧
        (t = .symbol .notWord → m.rank ≤ Level.negation.rank) := by
    rintro l m _ others ⟨t, rest, rfl, notParen, notOnly⟩ looser
    exact ⟨t, rest ++ others, rfl, notParen, fun isNot => looser.trans (notOnly isNot)⟩
  induction reads with
  | column n => exact ⟨_, _, rfl, nofun, nofun⟩
  | value v => exact ⟨_, _, rfl, nofun, nofun⟩
  | null => exact ⟨_, _, rfl, by decide, by decide⟩
  | group reads ih => exact ⟨_, _, rfl, by decide, by decide⟩
  | not reads ih => exact ⟨_, _, rfl, by decide, fun _ => Nat.le_refl _⟩
  | binary op left right ihLeft ihRight => exact goesOn ihLeft (Nat.le_refl _)
  | member negated first items ihFirst ihItems => exact goesOn ihFirst (Nat.le_refl _)
  | between negated first low high ihFirst ihLow ihHigh => exact goesOn ihFirst (Nat.le_refl _)
  | @tighter l ts e reads ih =>
      obtain ⟨t, rest, split, notParen, notOnly⟩ := ih
      exact ⟨t, rest, split, notParen, fun isNot => l.rank_le_next.trans (notOnly isNot)⟩

end Reads

end Tabula.Sql
