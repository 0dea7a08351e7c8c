import Tabula.Proofs.Source.Cut

/-! # Texts and their tokens

Matching brackets and taking them apart again are inverse to each other
(`Tabula.Source.nest?_flattened`, `Tabula.Source.flattened_of_nest?`), so a text has the tokens that
it falls into piece by piece, which is `Tabula.Source.Spells`. A text that falls into tokens is
written as they are, apart from blanks, and goes on with a comma and the tokens after it; a type is
such a text (`Tabula.Source.exists_tokens_of_isTypeText`).
-/

namespace Tabula.Source

/-! ## Tokens and brackets -/

mutual

/-- The token with its brackets as tokens of their own. -/
def Token.flat : Token → List Flat
  | .group d inner => .opening d :: (flattened inner ++ [.closing d])
  | .ident name => [.one (.ident name)]
  | .lifetime name => [.one (.lifetime name)]
  | .punct mark => [.one (.punct mark)]
  | .text value written => [.one (.text value written)]
  | .literal written => [.one (.literal written)]

/-- The tokens with the brackets in them as tokens of their own. -/
def flattened : List Token → List Flat
  | [] => []
  | t :: ts => t.flat ++ flattened ts

end

/-- Two lists of tokens are flattened one after the other. -/
theorem flattened_append (ts us : List Token) :
    flattened (ts ++ us) = flattened ts ++ flattened us := by
  induction ts with
  | nil => rfl
  | cons t ts ih => rw [List.cons_append, flattened, flattened, ih, List.append_assoc]

private theorem flattened_reverse_cons (t : Token) (ts : List Token) :
    flattened (t :: ts).reverse = flattened ts.reverse ++ t.flat := by
  rw [List.reverse_cons, flattened_append, flattened, flattened, List.append_nil]

mutual

private theorem nest?_flat (t : Token) (before : List Token) (outer : List (Delimiter × List Token))
    (fs : List Flat) : nest? before outer (t.flat ++ fs) = nest? (t :: before) outer fs := by
  match t with
  | .group d inner =>
      rw [Token.flat, List.cons_append, List.append_assoc, nest?, nest?_flattened inner]
      simp [nest?]
  | .ident _ | .lifetime _ | .punct _ | .text _ _ | .literal _ => simp [Token.flat, nest?]

private theorem nest?_flattened (ts before : List Token) (outer : List (Delimiter × List Token))
    (fs : List Flat) :
    nest? before outer (flattened ts ++ fs) = nest? (ts.reverse ++ before) outer fs := by
  match ts with
  | [] => rfl
  | t :: ts =>
      rw [flattened, List.append_assoc, nest?_flat t, nest?_flattened ts, List.reverse_cons,
        List.append_assoc, List.singleton_append]

end

/-- The tokens that were read, with the brackets around that are still open. -/
def unwound (before : List Token) : List (Delimiter × List Token) → List Flat
  | [] => flattened before.reverse
  | (d, front) :: outer => unwound front outer ++ .opening d :: flattened before.reverse

private theorem unwound_cons (t : Token) (before : List Token)
    (outer : List (Delimiter × List Token)) :
    unwound (t :: before) outer = unwound before outer ++ t.flat := by
  cases outer with
  | nil => rw [unwound, unwound, flattened_reverse_cons]
  | cons o outer =>
      obtain ⟨d, front⟩ := o
      rw [unwound, unwound, flattened_reverse_cons, List.append_assoc, List.cons_append]

/-- Matching brackets loses none of the tokens. -/
theorem flattened_of_nest? {ts : List Token} (fs : List Flat) (leaves : fs.all (·.isLeaf))
    (before : List Token) (outer : List (Delimiter × List Token))
    (nests : nest? before outer fs = some ts) : flattened ts = unwound before outer ++ fs := by
  -- What was read so far, brackets that are still open included, is what the stack unwinds to.
  induction fs generalizing before outer with
  | nil =>
      cases outer with
      | nil =>
          cases nests
          rw [unwound, List.append_nil]
      | cons o outer => cases nests
  | cons f fs ih =>
      rw [List.all_cons, Bool.and_eq_true] at leaves
      obtain ⟨leaf, leaves⟩ := leaves
      cases f with
      | one t =>
          have single : t.flat = [.one t] := by
            cases t with
            | group d inner => cases leaf
            | _ => simp only [Token.flat]
          rw [ih leaves _ _ nests, unwound_cons, single, List.append_assoc]
          rfl
      | opening d =>
          rw [ih leaves _ _ nests, unwound, List.reverse_nil, flattened, List.append_assoc]
          rfl
      | closing d =>
          cases outer with
          | nil => cases nests
          | cons o outer =>
              obtain ⟨d', front⟩ := o
              rw [nest?] at nests
              split at nests
              case isTrue same =>
                subst same
                rw [ih leaves _ _ nests, unwound_cons, unwound, Token.flat]
                simp
              case isFalse => cases nests

mutual

private theorem written_flat (t : Token) :
    t.flat.flatMap (·.written.toList) = t.written.toList := by
  match t with
  | .group d inner =>
      rw [Token.flat, Token.written, List.flatMap_cons, List.flatMap_append,
        written_flattened inner]
      simp [Flat.written]
  | .ident _ | .lifetime _ | .punct _ | .text _ _ | .literal _ => simp [Token.flat, Flat.written]

private theorem written_flattened (ts : List Token) :
    (flattened ts).flatMap (·.written.toList) = (writtenAll ts).toList := by
  match ts with
  | [] => rfl
  | t :: ts =>
      rw [flattened, writtenAll, List.flatMap_append, written_flat t, written_flattened ts,
        String.toList_append]

end

/-! ## Texts and their tokens -/

/-- The text falls into the tokens, without comments. -/
inductive Spells : List Char → List Flat → Prop where
  | nil : Spells [] []
  | cut {c : Char} {cs rest : List Char} {ts fs : List Flat}
      (noComment : beginsComment c cs = false) (cuts : cut? c cs = some (ts, rest))
      (others : Spells rest fs) : Spells (c :: cs) (ts ++ fs)

private theorem bare_append (cs ds : List Char) : bare (cs ++ ds) = bare cs ++ bare ds :=
  List.filter_append cs ds

private theorem length_of_cut? {c : Char} {cs rest : List Char} {ts : List Flat}
    (noComment : beginsComment c cs = false) (cuts : cut? c cs = some (ts, rest)) :
    rest.length ≤ cs.length := by
  obtain ⟨⟨front, split, _⟩, _⟩ := cutsOff_cut? noComment ts rest cuts
  rw [split, List.length_append]
  exact Nat.le_add_left _ _

/-- One token is cut off, and then the others. -/
theorem flatTokens?_cons (fuel : Nat) (c : Char) (cs : List Char) :
    flatTokens? (fuel + 1) (c :: cs) =
      (cut? c cs).bind fun r => (flatTokens? fuel r.2).map (r.1 ++ ·) := by
  rfl

private theorem hasComment_cons (fuel : Nat) (c : Char) (cs : List Char) :
    hasComment (fuel + 1) (c :: cs) =
      (beginsComment c cs || (cut? c cs).any fun r => hasComment fuel r.2) := by
  rfl

namespace Spells

/-- Where nothing is cut off but a blank, the others follow. -/
theorem skip {c : Char} {cs rest : List Char} {fs : List Flat}
    (noComment : beginsComment c cs = false) (cuts : cut? c cs = some ([], rest))
    (others : Spells rest fs) : Spells (c :: cs) fs :=
  cut noComment cuts others

/-- Where one token is cut off, the others follow it. -/
theorem one {c : Char} {cs rest : List Char} {f : Flat} {fs : List Flat}
    (noComment : beginsComment c cs = false) (cuts : cut? c cs = some ([f], rest))
    (others : Spells rest fs) : Spells (c :: cs) (f :: fs) :=
  cut noComment cuts others

variable {cs : List Char} {fs gs : List Flat}

/-- The tokens that are read in steps; each step leaves a shorter text. -/
theorem flatTokens?_eq (spells : Spells cs fs) {fuel : Nat} (enough : cs.length ≤ fuel) :
    flatTokens? fuel cs = some fs := by
  induction spells generalizing fuel with
  | nil => cases fuel <;> rfl
  | @cut c cs rest ts fs noComment cuts others ih =>
      have shorter := length_of_cut? noComment cuts
      obtain ⟨fuel, rfl⟩ := Nat.exists_eq_add_one.mpr (Nat.zero_lt_of_lt enough)
      rw [List.length_cons] at enough
      rw [flatTokens?_cons, cuts, Option.bind_some,
        ih (Nat.le_trans shorter (Nat.le_of_succ_le_succ enough)), Option.map_some]

/-- No token that a text falls into has brackets in it. -/
theorem isLeaf (spells : Spells cs fs) : fs.all (·.isLeaf) := by
  induction spells with
  | nil => rfl
  | @cut c cs rest ts fs noComment cuts others ih =>
      obtain ⟨⟨front, split, leaves, _⟩, _⟩ := cutsOff_cut? noComment ts rest cuts
      rw [List.all_append, leaves, ih]
      rfl

/-- Only blanks are left out of the tokens. -/
theorem bare_eq (spells : Spells cs fs) :
    bare (fs.flatMap fun f => f.written.toList) = bare cs := by
  induction spells with
  | nil => rfl
  | @cut c cs rest ts fs noComment cuts others ih =>
      obtain ⟨⟨front, split, _, written⟩, _⟩ := cutsOff_cut? noComment ts rest cuts
      rw [List.flatMap_append, bare_append, ih, written, split, ← bare_append, List.append_assoc]
      rfl

/-- A text goes on with a comma and its tokens. -/
theorem comma (spells : Spells cs fs) {later : List Char} (next : Spells (',' :: later) gs) :
    Spells (cs ++ ',' :: later) (fs ++ gs) := by
  induction spells with
  | nil => exact next
  | @cut c cs rest ts fs noComment cuts others ih =>
      obtain ⟨_, again⟩ := cutsOff_cut? noComment ts rest cuts
      rw [List.append_assoc]
      refine .cut ?_ (again later) ih
      cases cs with
      | nil => simp [beginsComment]
      | cons d cs => exact noComment

end Spells

/-- A text without comments falls into the tokens that are read off it. -/
theorem spells_of_flatTokens? {fuel : Nat} {cs : List Char} {fs : List Flat}
    (enough : cs.length ≤ fuel) (noComment : hasComment fuel cs = false)
    (read : flatTokens? fuel cs = some fs) : Spells cs fs := by
  induction fuel generalizing cs fs with
  | zero =>
      cases List.length_eq_zero_iff.mp (Nat.le_zero.mp enough)
      cases read
      exact .nil
  | succ fuel ih =>
      cases cs with
      | nil =>
          cases read
          exact .nil
      | cons c cs =>
          rw [flatTokens?_cons, Option.bind_eq_some_iff] at read
          obtain ⟨⟨ts, rest⟩, cuts, read⟩ := read
          obtain ⟨fs, readRest, rfl⟩ := Option.map_eq_some_iff.mp read
          rw [hasComment_cons, cuts, Bool.or_eq_false_iff, Option.any_some] at noComment
          have shorter := length_of_cut? noComment.1 cuts
          rw [List.length_cons] at enough
          exact .cut noComment.1 cuts
            (ih (Nat.le_trans shorter (Nat.le_of_succ_le_succ enough)) noComment.2 readRest)

/-- A text that falls into flattened tokens is read as the tokens. -/
theorem tokens?_of_spells {s : String} {ts : List Token} (spells : Spells s.toList (flattened ts)) :
    tokens? s = some ts := by
  have nests := nest?_flattened ts [] [] []
  rw [List.append_nil, List.append_nil] at nests
  simp only [tokens?, spells.flatTokens?_eq (Nat.le_refl _), bind, Option.bind_some, nests, nest?]
  simp

/-- The tokens of a type and those after it are all the tokens. -/
theorem typeTokens_append (s : TypeState) (ts : List Token) :
    (typeTokens s ts).1 ++ (typeTokens s ts).2.1 = ts := by
  induction ts generalizing s with
  | nil => rfl
  | cons t ts ih =>
      simp only [typeTokens]
      cases s.next? t with
      | none => rfl
      | some next => exact congrArg (t :: ·) (ih next)

/-- The tokens of a type, which are written as the type apart from blanks. -/
theorem exists_tokens_of_isTypeText {s : String} (isType : isTypeText s = true) :
    ∃ ts, Spells s.toList (flattened ts) ∧ typeExpr ts = .ok (ts, []) ∧
      Text.removeBlanks (writtenAll ts) = Text.removeBlanks s := by
  rw [isTypeText, Bool.and_eq_true, Bool.not_eq_true'] at isType
  obtain ⟨noComment, isType⟩ := isType
  cases read : tokens? s with
  | none =>
      rw [read] at isType
      cases isType
  | some ts =>
  simp only [read] at isType
  simp only [tokens?, bind, Option.bind_eq_some_iff] at read
  obtain ⟨fs, read, nests⟩ := read
  have spells := spells_of_flatTokens? (Nat.le_refl _) noComment read
  have same : flattened ts = fs := flattened_of_nest? fs spells.isLeaf [] [] nests
  subst same
  refine ⟨ts, spells, ?_, ?_⟩
  · have whole := typeTokens_append ⟨0, false, ""⟩ ts
    simp only [typeExpr] at isType ⊢
    generalize typeTokens ⟨0, false, ""⟩ ts = read at isType whole
    obtain ⟨taken, rest, isWhole⟩ := read
    cases isWhole with
    | false => cases isType
    | true =>
        cases List.isEmpty_iff.mp isType
        cases (List.append_nil taken).symm.trans whole
        rfl
  · rw [Text.removeBlanks, Text.removeBlanks, ← written_flattened]
    exact congrArg String.ofList spells.bare_eq

end Tabula.Source
