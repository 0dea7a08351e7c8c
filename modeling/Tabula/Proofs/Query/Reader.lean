import Tabula.Proofs.Query.Grammar

/-! # Reading expressions

The grammar gives no more than one expression to the tokens (`Tabula.Sql.Reads.unique`). It is so
because a reader finds every expression of the grammar: it reads what holds together most tightly
first and then goes on, from left to right, for as long as the next connective is of its level.
-/

namespace Tabula.Sql

/-- The connective at the front of the tokens, and what follows it. -/
def connective? : List (Token Value) → Option (Connective × List (Token Value))
  | .symbol .orWord :: rest => some (.binary .or, rest)
  | .symbol .andWord :: rest => some (.binary .and, rest)
  | .symbol .equal :: rest => some (.binary .equal, rest)
  | .symbol .unequal :: rest => some (.binary .unequal, rest)
  | .symbol .less :: rest => some (.binary .less, rest)
  | .symbol .lessEqual :: rest => some (.binary .lessEqual, rest)
  | .symbol .greater :: rest => some (.binary .greater, rest)
  | .symbol .greaterEqual :: rest => some (.binary .greaterEqual, rest)
  | .symbol .isWord :: .symbol .notWord :: rest => some (.binary .isNot, rest)
  | .symbol .isWord :: rest => some (.binary .is, rest)
  | .symbol .inWord :: .symbol .leftParen :: rest => some (.member false, rest)
  | .symbol .notWord :: .symbol .inWord :: .symbol .leftParen :: rest => some (.member true, rest)
  | .symbol .betweenWord :: rest => some (.between false, rest)
  | .symbol .notWord :: .symbol .betweenWord :: rest => some (.between true, rest)
  | _ => none

private theorem length_connective? {ts rest : List (Token Value)} {c : Connective}
    (found : connective? ts = some (c, rest)) : rest.length < ts.length := by
  unfold connective? at found
  split at found
  case h_15 => cases found
  all_goals
    obtain ⟨-, rfl⟩ := Prod.mk.inj (Option.some.inj found)
    simp only [List.length_cons]
    omega

/-- A connective is found where it stands. `IS` must not be followed by `NOT`, or it would be another
one. -/
theorem connective?_tokens (c : Connective) {rest : List (Token Value)}
    (apart : c = .binary .is → rest.head? ≠ some (.symbol .notWord)) :
    connective? (c.tokens ++ rest) = some (c, rest) := by
  cases c with
  | binary op =>
      by_cases isIs : op = .is
      · subst isIs
        change connective? (.symbol .isWord :: rest) = _
        rw [connective?]
        rintro later rfl
        exact apart rfl rfl
      · cases op <;> first | rfl | exact absurd rfl isIs
  | member negated => cases negated <;> rfl
  | between negated => cases negated <;> rfl

mutual

/-- The token or group at the front of the tokens, and what follows it. -/
def readAtom (ts : List (Token Value)) : Option (Expr × List (Token Value)) :=
  match ts with
  | .name n :: rest => some (.column n, rest)
  | .slot v :: rest => some (.value v, rest)
  | .symbol .nullWord :: rest => some (.null, rest)
  | .symbol .leftParen :: inside =>
    match read .disjunction inside with
    | some (e, .symbol .rightParen :: rest) => some (e, rest)
    | _ => none
  | _ => none
termination_by (ts.length, 0)

/-- The expression of the level at the front of the tokens, and what follows it. -/
def read (l : Level) (ts : List (Token Value)) : Option (Expr × List (Token Value)) :=
  if _isAtom : l = .atom then readAtom ts
  else if _isNot : l = .negation ∧ ts.head? = some (.symbol .notWord) then
    (read .negation ts.tail).map fun r => (.not r.1, r.2)
  else
    match read l.next ts with
    | some (e, rest) => if _shorter : rest.length ≤ ts.length then extend l e rest else none
    | none => none
termination_by (ts.length, 7 - l.rank)
decreasing_by
  all_goals have _bound : l.rank < 7 := Nat.lt_of_le_of_lt l.rank_le_atom (by decide)
  · exact Prod.Lex.right _ (Nat.sub_pos_of_lt _bound)
  · obtain ⟨t, rest, rfl⟩ : ∃ t rest, ts = t :: rest := by
      cases ts with
      | nil => cases _isNot.2
      | cons t rest => exact ⟨t, rest, rfl⟩
    exact Prod.Lex.left _ _ (Nat.lt_succ_self _)
  · rw [Level.rank_next _isAtom]
    exact Prod.Lex.right _ (Nat.sub_succ_lt_self 7 l.rank _bound)
  · exact Prod.Lex.right' _ _shorter (Nat.sub_pos_of_lt _bound)

/-- The expression that goes on by connectives of the level, and what follows it. -/
def extend (l : Level) (e : Expr) (ts : List (Token Value)) : Option (Expr × List (Token Value)) :=
  match _found : connective? ts with
  | some (c, after) =>
    if c.level = l then
      match readRest c e after with
      | some (joined, rest) =>
        if _shorter : rest.length < ts.length then extend l joined rest else none
      | none => none
    else some (e, ts)
  | none => some (e, ts)
termination_by (ts.length, 0)
decreasing_by
  · exact Prod.Lex.left _ _ (length_connective? _found)
  · exact Prod.Lex.left _ _ _shorter

/-- The expression whose first operand and connective have been read, and what follows it. -/
def readRest (c : Connective) (e : Expr) (ts : List (Token Value)) :
    Option (Expr × List (Token Value)) :=
  match c with
  | .binary op => (read op.level.next ts).map fun r => (.binary op e r.1, r.2)
  | .member negated => (readItems ts).map fun r => (.member negated e r.1, r.2)
  | .between negated =>
    match read .negation ts with
    | some (low, .symbol .andWord :: rest) =>
      if _shorter : rest.length < ts.length then
        (read .order rest).map fun r => (.between negated e low r.1, r.2)
      else none
    | _ => none
termination_by (ts.length, 9)

-- A comma right before the parenthesis is let through: the reader has to find what the grammar
-- derives, and may find more.
/-- The operands up to the closing parenthesis, and what follows it. -/
def readItems (ts : List (Token Value)) : Option (List Expr × List (Token Value)) :=
  if ts.head? = some (.symbol .rightParen) then some ([], ts.tail)
  else
    match read .disjunction ts with
    | some (e, .symbol .rightParen :: rest) => some ([e], rest)
    | some (e, .symbol .comma :: rest) =>
      if _shorter : rest.length < ts.length then
        (readItems rest).map fun r => (e :: r.1, r.2)
      else none
    | _ => none
termination_by (ts.length, 8)

end

/-! ## The rules are read -/

/-- No connective tighter than the level stands at the front of the tokens. -/
def Stops (l : Level) (ts : List (Token Value)) : Prop :=
  ∀ c rest, connective? ts = some (c, rest) → c.level.rank ≤ l.rank

private theorem Stops.of_none {l : Level} {ts : List (Token Value)} (none : connective? ts = none) :
    Stops l ts := by
  intro c rest found
  cases none.symm.trans found

/-- A level stops before a connective that binds no more closely than it does. -/
theorem Stops.connective {l : Level} {c : Connective} {rest : List (Token Value)}
    (apart : c = .binary .is → rest.head? ≠ some (.symbol .notWord))
    (looser : c.level.rank ≤ l.rank) : Stops l (c.tokens ++ rest) := by
  intro d later found
  rw [connective?_tokens c apart] at found
  obtain ⟨rfl, -⟩ := Prod.mk.inj (Option.some.inj found)
  exact looser

private theorem Stops.tighten {l m : Level} {ts : List (Token Value)} (stops : Stops l ts)
    (tighter : l.rank ≤ m.rank) : Stops m ts := by
  intro c rest found
  exact (stops c rest found).trans tighter

/-- An expression does not go on where the next connective is of another level. -/
theorem extend_of_ne {l : Level} {ts : List (Token Value)}
    (other : ∀ c rest, connective? ts = some (c, rest) → c.level ≠ l) (e : Expr) :
    extend l e ts = some (e, ts) := by
  rw [extend]
  split
  · rename_i c rest found
    rw [if_neg (other c rest found)]
  · rfl

private theorem Stops.extend_eq {l m : Level} {ts : List (Token Value)} (stops : Stops l ts)
    (tighter : l.rank < m.rank) (e : Expr) : extend m e ts = some (e, ts) := by
  apply extend_of_ne
  rintro c rest found rfl
  exact absurd (stops c rest found) (Nat.not_le_of_lt tighter)

private theorem extend_of_none {l : Level} {ts : List (Token Value)} (none : connective? ts = none)
    (e : Expr) : extend l e ts = some (e, ts) := by
  apply extend_of_ne
  intro c rest found
  cases none.symm.trans found

private theorem extend_negation (e : Expr) (ts : List (Token Value)) :
    extend .negation e ts = some (e, ts) := by
  apply extend_of_ne
  intro c rest found
  exact c.level_ne_negation

private theorem extend_atom (e : Expr) (ts : List (Token Value)) :
    extend .atom e ts = some (e, ts) := by
  apply extend_of_ne
  intro c rest found
  exact c.level_ne_atom

/-- An expression goes on with what follows a connective of the level. -/
theorem extend_tokens {c : Connective} {e joined : Expr} {after rest : List (Token Value)}
    (apart : c = .binary .is → after.head? ≠ some (.symbol .notWord))
    (isRest : readRest c e after = some (joined, rest)) (shorter : rest.length ≤ after.length) :
    extend c.level e (c.tokens ++ after) = extend c.level joined rest := by
  have found := connective?_tokens c apart
  have inside := length_connective? found
  rw [extend]
  split
  · rename_i d later isFound
    obtain ⟨rfl, rfl⟩ := Prod.mk.inj (Option.some.inj (found.symm.trans isFound))
    rw [if_pos rfl, isRest]
    exact dif_pos (Nat.lt_of_le_of_lt shorter inside)
  · rename_i unfound
    cases found.symm.trans unfound

/-- A first operand, a connective and what it goes on with are read as one. -/
theorem read_tokens (c : Connective) {e joined : Expr} {ts after rest : List (Token Value)}
    (isFirst : ∀ {later}, Stops c.level later → read c.level (ts ++ later) = extend c.level e later)
    (apart : c = .binary .is → after.head? ≠ some (.symbol .notWord))
    (isRest : readRest c e after = some (joined, rest)) (shorter : rest.length ≤ after.length) :
    read c.level (ts ++ (c.tokens ++ after)) = extend c.level joined rest := by
  rw [isFirst (.connective apart (Nat.le_refl _)), extend_tokens apart isRest shorter]

/-- What holds together more tightly is read first, and the expression then goes on. -/
theorem read_eq_extend {l : Level} {e : Expr} {ts rest : List (Token Value)} (notAtom : l ≠ .atom)
    (notNot : l = .negation → ts.head? ≠ some (.symbol .notWord))
    (first : read l.next ts = some (e, rest)) (shorter : rest.length ≤ ts.length) :
    read l ts = extend l e rest := by
  rw [read, dif_neg notAtom, dif_neg fun both => notNot both.1 both.2, first]
  exact dif_pos shorter

private theorem readItems_last {e : Expr} {ts rest : List (Token Value)}
    (begins : ts.head? ≠ some (.symbol .rightParen))
    (first : read .disjunction ts = some (e, .symbol .rightParen :: rest)) :
    readItems ts = some ([e], rest) := by
  rw [readItems, if_neg begins, first]

private theorem readItems_more {e : Expr} {ts rest : List (Token Value)}
    (begins : ts.head? ≠ some (.symbol .rightParen))
    (first : read .disjunction ts = some (e, .symbol .comma :: rest))
    (shorter : rest.length < ts.length) :
    readItems ts = (readItems rest).map fun r => (e :: r.1, r.2) := by
  rw [readItems, if_neg begins, first]
  exact dif_pos shorter

/-- No expression begins with a closing parenthesis. -/
theorem Reads.head?_ne_rightParen {l : Level} {ts : List (Token Value)} {e : Expr}
    (reads : Reads l ts e) (rest : List (Token Value)) :
    (ts ++ rest).head? ≠ some (.symbol .rightParen) := by
  obtain ⟨t, others, rfl, notParen, -⟩ := reads.head
  exact fun isParen => notParen (Option.some.inj isParen)

/-- Only an expression that may be a negation begins with `NOT`. -/
theorem Reads.head?_ne_notWord {l : Level} {ts : List (Token Value)} {e : Expr}
    (reads : Reads l ts e) (tighter : Level.negation.rank < l.rank) (rest : List (Token Value)) :
    (ts ++ rest).head? ≠ some (.symbol .notWord) := by
  obtain ⟨t, others, rfl, -, notOnly⟩ := reads.head
  exact fun isNot => Nat.not_le_of_lt tighter (notOnly (Option.some.inj isNot))

/-- A list of operands is read if each of them is. -/
theorem readItems_separated {items : List (List (Token Value) × Expr)}
    (each : ∀ item ∈ items, Reads .disjunction item.1 item.2)
    (isRead : ∀ item ∈ items, ∀ {rest}, Stops .disjunction rest →
      read .disjunction (item.1 ++ rest) = extend .disjunction item.2 rest)
    (rest : List (Token Value)) :
    readItems (separated .comma (items.map (·.1)) ++ .symbol .rightParen :: rest) =
      some (items.map (·.2), rest) := by
  induction items with
  | nil =>
      change readItems (.symbol .rightParen :: rest) = _
      rw [readItems]
      exact if_pos rfl
  | cons item items ih =>
      have begins := (each item List.mem_cons_self).head?_ne_rightParen
      have ends : ∀ {later}, connective? later = none →
          read .disjunction (item.1 ++ later) = some (item.2, later) := by
        intro later none
        rw [isRead item List.mem_cons_self (.of_none none), extend_of_none none]
      cases items with
      | nil =>
          rw [List.map_singleton, separated_singleton]
          exact readItems_last (begins _) (ends rfl)
      | cons next more =>
          have later := ih (fun item member => each item (List.mem_cons_of_mem _ member))
            fun item member => isRead item (List.mem_cons_of_mem _ member)
          have comma : separated .comma ((item :: next :: more).map (·.1)) ++ .symbol .rightParen :: rest =
              item.1 ++ .symbol .comma ::
                (separated .comma ((next :: more).map (·.1)) ++ .symbol .rightParen :: rest) := by
            rw [List.map_cons, List.map_cons, separated_cons_cons, List.append_assoc]
            rfl
          rw [comma, readItems_more (begins _) (ends rfl), later]
          · rfl
          · simp only [List.length_append, List.length_cons]
            omega

/-- The bounds of a range are read, the lower one up to its `AND`. -/
theorem readRest_between (negated : Bool) {e low high : Expr} {ts after rest : List (Token Value)}
    (isLow : read .negation ts = some (low, .symbol .andWord :: after))
    (shorter : after.length < ts.length) (isHigh : read .order after = some (high, rest)) :
    readRest (.between negated) e ts = some (.between negated e low high, rest) := by
  rw [readRest, isLow]
  dsimp only
  rw [dif_pos shorter, isHigh]
  rfl

/-- The reader finds what the grammar derives, and goes on where it ends. -/
theorem Reads.read_append {l : Level} {ts : List (Token Value)} {e : Expr} (reads : Reads l ts e)
    {rest : List (Token Value)} (stops : Stops l rest) :
    read l (ts ++ rest) = extend l e rest := by
  -- An operand on the left is followed by the rest of its expression, so what follows is general;
  -- it must not begin with a connective that would take the end of the operand for its own.
  induction reads generalizing rest with
  | column n => rw [read, dif_pos rfl, List.singleton_append, readAtom, extend_atom]
  | value v => rw [read, dif_pos rfl, List.singleton_append, readAtom, extend_atom]
  | null => rw [read, dif_pos rfl, List.singleton_append, readAtom, extend_atom]
  | @group ts e reads ih =>
      have inside : read .disjunction (ts ++ .symbol .rightParen :: rest) =
          some (e, .symbol .rightParen :: rest) := by
        rw [ih (.of_none rfl), extend_of_none rfl]
      rw [read, dif_pos rfl, List.cons_append, List.append_assoc, readAtom, List.singleton_append,
        inside, extend_atom]
  | @not ts e reads ih =>
      rw [read, dif_neg nofun, dif_pos ⟨rfl, rfl⟩, List.cons_append, List.tail_cons, ih stops,
        extend_negation, extend_negation]
      rfl
  | @binary op ls rs l r left right ihLeft ihRight =>
      have apart : Connective.binary op = .binary .is →
          (rs ++ rest).head? ≠ some (.symbol .notWord) := by
        intro isIs
        obtain rfl := Connective.binary.inj isIs
        exact right.head?_ne_notWord (by decide) rest
      have isRest : readRest (.binary op) l (rs ++ rest) = some (.binary op l r, rest) := by
        have tighter : op.level.next.rank = op.level.rank + 1 :=
          Level.rank_next (Connective.level_ne_atom (.binary op))
        rw [readRest, ihRight (stops.tighten op.level.rank_le_next), stops.extend_eq (by omega)]
        rfl
      rw [List.append_assoc, List.append_assoc]
      exact read_tokens (.binary op) ihLeft apart isRest (by simp)
  | @member negated ts e items first each ihFirst ihItems =>
      have isRest : readRest (.member negated) e
          (separated .comma (items.map (·.1)) ++ .symbol .rightParen :: rest) =
            some (.member negated e (items.map (·.2)), rest) := by
        rw [readRest, readItems_separated each (fun item member => ihItems item member)]
        rfl
      rw [List.append_assoc, List.append_assoc, List.append_assoc]
      refine read_tokens (.member negated) ihFirst nofun isRest ?_
      simp only [List.length_append, List.length_cons]
      omega
  | @between negated ts ls hs e low high first isLow isHigh ihFirst ihLow ihHigh =>
      have readLow : read .negation (ls ++ .symbol .andWord :: (hs ++ rest)) =
          some (low, .symbol .andWord :: (hs ++ rest)) := by
        have looser : Stops .negation (.symbol .andWord :: (hs ++ rest)) :=
          Stops.connective (c := .binary .and) nofun (by decide)
        rw [ihLow looser, extend_negation]
      have readHigh : read .order (hs ++ rest) = some (high, rest) := by
        rw [ihHigh (stops.tighten (by decide)), stops.extend_eq (by decide)]
      have shorter : (hs ++ rest).length < (ls ++ .symbol .andWord :: (hs ++ rest)).length := by
        simp only [List.length_append, List.length_cons]
        omega
      rw [List.append_assoc, List.append_assoc, List.append_assoc]
      refine read_tokens (.between negated) ihFirst nofun
        (readRest_between negated readLow shorter readHigh) ?_
      simp only [List.length_append, List.length_cons]
      omega
  | @tighter l ts e reads ih =>
      by_cases isAtom : l = .atom
      · subst isAtom
        exact ih stops
      · have below := Level.rank_next isAtom
        have first : read l.next (ts ++ rest) = some (e, rest) := by
          rw [ih (stops.tighten l.rank_le_next)]
          exact stops.extend_eq (by omega) e
        refine read_eq_extend isAtom ?_ first (by simp)
        rintro rfl
        exact reads.head?_ne_notWord (by decide) rest

/-- Tokens make no more than one expression. -/
theorem Reads.unique {l : Level} {ts : List (Token Value)} {e f : Expr} (first : Reads l ts e)
    (second : Reads l ts f) : e = f := by
  have ends : ∀ {e : Expr}, Reads l ts e → read l (ts ++ []) = some (e, []) := by
    intro e reads
    rw [reads.read_append (.of_none rfl), extend_of_none rfl]
  have same := (ends first).symm.trans (ends second)
  exact (Prod.mk.inj (Option.some.inj same)).1

end Tabula.Sql
